import AtmCore.QueueWakePolicy

/-! The queue wake pump. A tick polls the runtime state of the members, reads their open tasks once, and then goes
through the members: one whose head task is due is prompted, and a task that stalls, a member that is blocked or
offline, and a member that refuses too often are escalated by mail. Between the parts of a tick, and between ticks,
the ledger and the roster go on. What the pump learns from outside is an input of its steps. -/

namespace AtmCore

/-! Escalation mail -/

inductive EscalationKind where
  | taskStalled
  | blockedEscalated
  | offlineEscalated
  | refusalsEscalated
  deriving DecidableEq

def EscalationKind.asStr : EscalationKind → String
  | .taskStalled => "lead_notified"
  | .blockedEscalated => "blocked_escalated"
  | .offlineEscalated => "offline_escalated"
  | .refusalsEscalated => "refusals_escalated"

def EpisodeKind.escalation : EpisodeKind → EscalationKind
  | .blocked => .blockedEscalated
  | .offline => .offlineEscalated

def MemberKey.text (member : MemberKey) : String := s!"{member.agent.val}@{member.team.val}"

def escalationSummary (kind : EscalationKind) (member : MemberKey) (task : Option TaskId) : String :=
  match task with
  | some taskId => s!"escalation:{kind.asStr}:{member.text}:{taskId.val}"
  | none => s!"escalation:{kind.asStr}:{member.text}"

/-- A roster as the escalation reads it: the members, and which of them lead. -/
structure TeamMembers where
  agents : List AgentName
  leads : List AgentName

/-- How the write pipeline takes a mail up to its persistence and, in `finish`, after it. -/
structure MailRoute where
  context : SendExecutionContext
  messageId : AtmMessageId
  timestamp : IsoTimestamp
  now : IsoTimestamp
  ambient : Ambient
  finish : Option AtmError

/-- What an escalation learns from outside. A mailbox is read at an instant, or cannot be read. -/
structure EscalationInputs where
  roster : Except AtmError TeamMembers
  recipients : Except AtmError (List AgentAddress)
  readerAvailable : Bool
  mailboxRead : MailboxScope → Except AtmError IsoTimestamp
  mail : AgentAddress → Except AtmError MailRoute
  body : String

structure EscalationOutcome where
  auditDelivery : Option (AgentName × AtmMessageId)
  recipientsWritten : Nat
  recipientsFailed : Nat
  deriving DecidableEq

def EscalationOutcome.default : EscalationOutcome := ⟨none, 0, 0⟩

/-- `record_escalation_write`. -/
def EscalationOutcome.written (outcome : EscalationOutcome) (recipient : AgentName) (messageId : AtmMessageId) :
    EscalationOutcome :=
  { outcome with
    auditDelivery := some (outcome.auditDelivery.getD (recipient, messageId))
    recipientsWritten := outcome.recipientsWritten + 1 }

def EscalationOutcome.failed (outcome : EscalationOutcome) : EscalationOutcome :=
  { outcome with recipientsFailed := outcome.recipientsFailed + 1 }

/-- How an escalation ends: with its outcome, or with an error and what was written until then, which is lost. -/
structure EscalationResult where
  error : Option AtmError
  outcome : EscalationOutcome
  deriving DecidableEq

def localAddress (agent : AgentName) (team : TeamName) : AgentAddress :=
  ⟨agent, none, some team, none, fun h => by cases h⟩

/-- The request of an escalation mail; a terminal one carries the mark of the daemon. -/
def escalationRequest (terminal : Bool) (team : TeamName) (recipient : AgentAddress) (body : String) :
    WriteRequest where
  callerIdentity := daemonActor
  callerChatId := none
  callerTeam := team
  authenticatedSourceHost := none
  originMessageId := none
  originTimestamp := none
  destination := some recipient
  messageSource := .inline body
  classification := ⟨none, [], none⟩
  requiresAck := false
  taskId := none
  placement := none
  taskOp := none
  taskComplete := none
  parentMessageId := none
  threadMode := none
  expiresAt := none
  acknowledgesMessageId := none
  dryRun := false
  daemonEscalationProvenance := terminal

def writeEscalationMail (world : World) (port : RenderPort) (inputs : EscalationInputs) (terminal : Bool)
    (team : TeamName) (recipient : AgentAddress) (summary : String) (db : Db) :
    Except AtmError AtmMessageId × Db :=
  match inputs.mail recipient with
  | .error error => (.error error, db)
  | .ok route =>
    let result := Send.persist world port ⟨.sync, {
      request := escalationRequest terminal team recipient inputs.body
      context := route.context
      identity := ⟨inputs.body, summary, route.messageId, route.timestamp⟩
      now := route.now
      ambient := route.ambient }⟩ db db
    match result.1, route.finish with
    | .error error, _ => (.error error, result.2)
    | .ok _, some error => (.error error, result.2)
    | .ok _, none => (.ok route.messageId, result.2)

/-- The mailbox has a mail of the daemon with this summary from this episode. -/
def alreadyReported (now : IsoTimestamp) (mailbox : MailboxScope) (summary : String) (since : IsoTimestamp)
    (db : Db) : Bool :=
  (listMessages now ⟨mailbox, some daemonActor, none, none⟩ db).any (fun message =>
    decide (message.envelope.summary = some summary) && decide (since.nanos ≤ message.envelope.timestamp.nanos))

/-- A recipient elsewhere is never suppressed, nor one whose mailbox cannot be read. -/
def shouldSuppress (inputs : EscalationInputs) (address : AgentAddress) (team : TeamName) (summary : String)
    (since : Option IsoTimestamp) (db : Db) : Bool :=
  match since with
  | none => false
  | some since =>
    if inputs.readerAvailable && address.host.isNone then
      let mailbox : MailboxScope := ⟨address.team.getD team, address.agent⟩
      match inputs.mailboxRead mailbox with
      | .ok now => alreadyReported now mailbox summary since db
      | .error _ => false
    else false

/-- The lead, where exactly one is wanted. -/
def soleLead (leads : List AgentName) : List AgentName := if leads.length = 1 then leads else []

/-- The recipients of an escalation that is no episode. -/
def escalationRecipients (kind : EscalationKind) (team : TeamName) (roster : TeamMembers)
    (recipients : List AgentAddress) : List AgentAddress :=
  (match kind with
    | .taskStalled => roster.leads
    | _ => soleLead roster.leads).map (localAddress · team) ++ recipients.take maxEscalationRecipients

def writeToEscalationRecipients (world : World) (port : RenderPort) (inputs : EscalationInputs) (team : TeamName)
    (summary : String) (since : Option IsoTimestamp) :
    List AgentAddress → EscalationOutcome → Db → EscalationOutcome × Db
  | [], outcome, db => (outcome, db)
  | recipient :: rest, outcome, db =>
    if shouldSuppress inputs recipient team summary since db then
      writeToEscalationRecipients world port inputs team summary since rest outcome db
    else
      let result := writeEscalationMail world port inputs false team recipient summary db
      match result.1 with
      | .ok messageId =>
        writeToEscalationRecipients world port inputs team summary since rest
          (outcome.written recipient.agent messageId) result.2
      | .error _ => writeToEscalationRecipients world port inputs team summary since rest outcome.failed result.2

/-- The recipients of an episode: the one lead, and the configured recipients that are members here. -/
def terminalEscalationRecipients (team : TeamName) (roster : TeamMembers) (recipients : List AgentAddress) :
    List AgentAddress :=
  recipients.foldl (fun known recipient =>
    if recipient.host.isNone && recipient.team.all (fun other => decide (other = team)) &&
        decide (recipient.agent ∈ roster.agents) && !decide (recipient ∈ known)
    then known ++ [recipient] else known) ((soleLead roster.leads).map (localAddress · team))

/-- `write_terminal_escalations`; a mailbox that cannot be read ends it. -/
def writeTerminalEscalations (world : World) (port : RenderPort) (inputs : EscalationInputs) (team : TeamName)
    (summary : String) (startedAt : IsoTimestamp) :
    List AgentAddress → EscalationOutcome → Db → EscalationResult × Db
  | [], outcome, db => (⟨none, outcome⟩, db)
  | recipient :: rest, outcome, db =>
    match inputs.mailboxRead ⟨team, recipient.agent⟩ with
    | .error error => (⟨some error, outcome⟩, db)
    | .ok now =>
      if alreadyReported now ⟨team, recipient.agent⟩ summary startedAt db then
        writeTerminalEscalations world port inputs team summary startedAt rest outcome db
      else
        let result := writeEscalationMail world port inputs true team recipient summary db
        match result.1 with
        | .ok messageId =>
          writeTerminalEscalations world port inputs team summary startedAt rest
            (outcome.written recipient.agent messageId) result.2
        | .error _ => writeTerminalEscalations world port inputs team summary startedAt rest outcome.failed result.2

def terminalEpisode (runtime : MemberRuntime) : Except AtmError (String × IsoTimestamp) :=
  match runtime.stateChangedAt with
  | none => .error (.validation "Herdr escalation admission requires a runtime episode epoch")
  | some startedAt =>
    match runtime.state with
    | .blocked => .ok ("blocked", startedAt)
    | .offline => .ok ("offline", startedAt)
    | _ => .error (.validation "Herdr escalation admission requires blocked or offline runtime state")

/-- `write_current_herdr_terminal_escalation_with_runtime`: everything is derived again from what is there now. -/
def writeTerminalEpisode (world : World) (port : RenderPort) (inputs : EscalationInputs)
    (runtime : Option MemberRuntime) (member : MemberKey) (db : Db) : EscalationResult × Db :=
  match runtime with
  | none =>
    (⟨some (.validation "Herdr escalation admission member is absent from the runtime roster"), .default⟩, db)
  | some runtime =>
    match terminalEpisode runtime with
    | .error error => (⟨some error, .default⟩, db)
    | .ok (stateName, startedAt) =>
      if (openTasksByMember (fun _ => true) db member).isEmpty then
        (⟨some (.validation "Herdr escalation admission requires an authoritative open task"), .default⟩, db)
      else
        match inputs.roster, inputs.recipients with
        | .error error, _ => (⟨some error, .default⟩, db)
        | _, .error error => (⟨some error, .default⟩, db)
        | .ok roster, .ok recipients =>
          writeTerminalEscalations world port inputs member.team
            s!"escalation:{stateName}_escalated:{member.text}" startedAt
            (terminalEscalationRecipients member.team roster recipients) .default db

/-- Every recipient has the episode already, and there is one. -/
def terminalRecipientsAreSuppressed (inputs : EscalationInputs) (team : TeamName) (summary : String)
    (since : IsoTimestamp) (db : Db) : Except AtmError Bool := do
  let roster ← inputs.roster
  let recipients ← inputs.recipients
  let addressed := (soleLead roster.leads).map (localAddress · team) ++ recipients.take maxEscalationRecipients
  return !addressed.isEmpty && addressed.all (fun recipient =>
    shouldSuppress inputs recipient team summary (some since) db)

/-- `escalate_mail` of an episode. -/
def escalateEpisodeMail (world : World) (port : RenderPort) (inputs : EscalationInputs) (runtime : Option MemberRuntime)
    (member : MemberKey) (kind : EpisodeKind) (since : IsoTimestamp) (db : Db) : EscalationResult × Db :=
  match terminalRecipientsAreSuppressed inputs member.team (escalationSummary kind.escalation member none) since db with
  | .error error => (⟨some error, .default⟩, db)
  | .ok true => (⟨none, .default⟩, db)
  | .ok false => writeTerminalEpisode world port inputs runtime member db

/-- `escalate_mail` without an episode. -/
def escalateMail (world : World) (port : RenderPort) (inputs : EscalationInputs) (member : MemberKey)
    (kind : EscalationKind) (task : Option TaskId) (since : Option IsoTimestamp) (db : Db) : EscalationResult × Db :=
  match inputs.roster, inputs.recipients with
  | .error error, _ => (⟨some error, .default⟩, db)
  | _, .error error => (⟨some error, .default⟩, db)
  | .ok roster, .ok recipients =>
    let result := writeToEscalationRecipients world port inputs member.team (escalationSummary kind member task) since
      (escalationRecipients kind member.team roster recipients) .default db
    (⟨none, result.1⟩, result.2)

/-! The pump -/

structure MemberObservation where
  member : MemberKey
  state : RuntimeMemberState
  stateChangedAt : Option IsoTimestamp

/-- A tick under way: what it has read, when its task pass began, and the members it has still to go through. -/
structure WakeTick where
  openTasks : MemberKey → List TaskRow
  openMail : MemberKey → Bool
  now : Option IsoTimestamp
  remaining : List MemberObservation

inductive WakeEvent where
  | prompted (member : MemberKey) (instant : IsoTimestamp)
  | ledgerFailed (member : MemberKey)
  | escalated (kind : EscalationKind) (member : MemberKey) (task : Option TaskId) (result : EscalationResult)
  deriving DecidableEq

structure WakePump where
  db : Db
  roster : MemberKey → Option MemberRuntime
  episodes : Episodes
  absences : MemberKey → Option IsoTimestamp
  clock : IsoTimestamp
  tick : Option WakeTick
  prompted : Nat
  log : List WakeEvent

/-- What one member's turn learns from outside. A dispatch may have no channel; a ledger write may not get through. -/
structure TurnInputs where
  refusalsReadable : Bool
  eventsReadable : Bool
  taskReadable : Bool
  dispatch : Except AtmError Bool
  emitterSelected : Bool
  emission : Except AtmError Unit
  order : RowOrder
  ledgerError : Option AtmError
  freshId : AtmMessageId
  escalation : EscalationInputs
  refusalEscalation : EscalationInputs

namespace WakePump

variable (world : World) (port : RenderPort) (inputs : TurnInputs)

def writeLedger (member : MemberKey) (taskId : TaskId) (write : ReminderWrite) (pump : WakePump) : WakePump :=
  match inputs.ledgerError, write.run inputs.order member taskId pump.db with
  | none, .ok (_, db) => { pump with db := db }
  | _, _ => { pump with log := pump.log ++ [.ledgerFailed member] }

def stillIdle (pump : WakePump) (member : MemberKey) : Bool :=
  (pump.roster member).any (fun runtime => decide (runtime.state = .idle))

def emitTaskReminder (member : MemberKey) (row : TaskRow) (now : IsoTimestamp) (pump : WakePump) : WakePump :=
  if herdrMaxPromptsPerTick ≤ pump.prompted then pump
  else
    match inputs.dispatch with
    | .error _ => pump.writeLedger inputs member row.taskId (.reminded now .unrenderable)
    | .ok false => pump
    | .ok true =>
      if pump.stillIdle member && inputs.emitterSelected then
        match inputs.emission with
        | .ok () =>
          { pump with prompted := pump.prompted + 1, log := pump.log ++ [WakeEvent.prompted member now] }.writeLedger
            inputs member row.taskId (.reminded now .emitted)
        | .error _ => pump
      else pump

/-- The task as it is now, if it is still the assignment that stalls. -/
def currentStalledTask (row : TaskRow) (db : Db) : Option TaskRow :=
  if inputs.taskReadable then
    match selectTaskRow db.tasks row.team row.taskId with
    | .ok (some current) =>
      if current.state = .assigned ∧ current.assignee = row.assignee ∧
          current.assignmentMessageId = row.assignmentMessageId ∧ escalationDue current = true then some current
      else none
    | _ => none
  else none

def escalateStalledTask (row : TaskRow) (now : IsoTimestamp) (pump : WakePump) : WakePump :=
  if inputs.eventsReadable && (currentStalledTask inputs row pump.db).isSome then
    let member : MemberKey := ⟨row.team, row.assignee⟩
    let result := escalateMail world port inputs.escalation member .taskStalled (some row.taskId) none pump.db
    let mailed :=
      { pump with db := result.2, log := pump.log ++ [.escalated .taskStalled member (some row.taskId) result.1] }
    match result.1.error with
    | some _ => mailed
    | none =>
      let audit := result.1.outcome.auditDelivery.getD (daemonActor, inputs.freshId)
      mailed.writeLedger inputs member row.taskId (.leadNotified now audit.1 audit.2)
  else pump

/-- The episode and the task are looked at again before anything is written. -/
def escalateEpisode (member : MemberKey) (taskId : TaskId) (kind : EpisodeKind) (since : IsoTimestamp)
    (pump : WakePump) : WakePump :=
  if (pump.roster member).any (fun runtime => observeVerify runtime.state runtime.stateChangedAt kind since) then
    match loadTaskRow pump.db.tasks member.team taskId with
    | .ok (some task) =>
      if task.state.isOpen && decide (task.assignee = member.agent) then
        let result := escalateEpisodeMail world port inputs.escalation (pump.roster member) member kind since pump.db
        let mailed := { pump with db := result.2, log := pump.log ++ [.escalated kind.escalation member none result.1] }
        match result.1.error with
        | some _ => { mailed with episodes := holdTargetsUnavailable mailed.episodes member }
        | none => mailed
      else pump
    | _ => pump
  else pump

def escalateRefusals (member : MemberKey) (since : IsoTimestamp) (pump : WakePump) : WakePump :=
  let result := escalateMail world port inputs.refusalEscalation member .refusalsEscalated none (some since) pump.db
  { pump with db := result.2, log := pump.log ++ [.escalated .refusalsEscalated member none result.1] }

/-- The number of refusals, escalated when there are too many; none if they cannot be read. -/
def refusalCheck (member : MemberKey) (pump : WakePump) : Option (Nat × WakePump) :=
  if inputs.refusalsReadable then
    match trailingRefusalRun pump.db.taskEvents member with
    | (count, some since) =>
      some (count, if taskConsecutiveRefusalThreshold ≤ count then
        pump.escalateRefusals world port inputs member since else pump)
    | (count, none) => some (count, pump)
  else none

def applyTaskDisposition (candidate : MemberObservation) (head : Option TaskRow) (now : IsoTimestamp)
    (disposition : TaskDisposition) (pump : WakePump) : WakePump :=
  match head with
  | none => pump
  | some row =>
    match disposition with
    | .escalateEpisode kind =>
      pump.escalateEpisode world port inputs candidate.member row.taskId kind (candidate.stateChangedAt.getD now)
    | .escalateStalled => pump.escalateStalledTask world port inputs row now
    | .nudge => pump.emitTaskReminder inputs candidate.member row now
    | .resetReminders => pump.writeLedger inputs candidate.member row.taskId (.reset now)
    | .hold _ => pump

def processTaskCandidate (tick : WakeTick) (now : IsoTimestamp) (candidate : MemberObservation) (pump : WakePump) :
    WakePump :=
  let head := (tick.openTasks candidate.member).head?
  let mailPending := tick.openMail candidate.member
  let observed := observeEscalationEpisodeIfEligible pump.episodes candidate.member candidate.state
    candidate.stateChangedAt head.isSome
  let pump := { pump with episodes := observed.2 }
  if candidate.state ≠ .idle ∨ head.isNone then
    pump.applyTaskDisposition world port inputs candidate head now
      (dispose mailPending candidate.state head now candidate.stateChangedAt observed.1 0)
  else
    match pump.refusalCheck world port inputs candidate.member with
    | none => pump
    | some (refusals, pump) =>
      pump.applyTaskDisposition world port inputs candidate head now
        (dispose mailPending candidate.state head now candidate.stateChangedAt observed.1 refusals)

end WakePump

inductive PollResult where
  | rosterOnly
  | listed (status : Option HerdrAgentStatus)
  | unavailable

/-- The candidates of a tick: every member of the roster once. -/
structure Polls where
  results : List (MemberKey × PollResult)
  nodup : (results.map Prod.fst).Nodup

/-- One candidate is polled: its observation is applied to the roster, and it is observed. -/
def pollMember (instant : IsoTimestamp) (poll : MemberKey × PollResult) (pump : WakePump) :
    WakePump × Option MemberObservation :=
  match poll.2, pump.roster poll.1 with
  | .rosterOnly, some runtime => (pump, some ⟨poll.1, runtime.state, runtime.stateChangedAt⟩)
  | .rosterOnly, none => (pump, none)
  | .listed status, some runtime =>
    let (state, absences) := runtimeStateWithAbsence pump.absences poll.1 status instant
    let observed := applyRuntimeObservation (some state) instant runtime
    ({ pump with roster := Function.update pump.roster poll.1 (some observed), absences := absences },
      some ⟨poll.1, observed.state, observed.stateChangedAt⟩)
  | .listed status, none =>
    ({ pump with absences := (runtimeStateWithAbsence pump.absences poll.1 status instant).2 }, none)
  | .unavailable, _ => (pump, none)

def pollMembers (instant : IsoTimestamp) : List (MemberKey × PollResult) → WakePump → WakePump × List MemberObservation
  | [], pump => (pump, [])
  | poll :: polls, pump =>
    let (pump, observation) := pollMember instant poll pump
    let (pump, observations) := pollMembers instant polls pump
    (pump, observation.toList ++ observations)

inductive WakeStep where
  /-- The tick polls its candidates and reads the open tasks; `drained` nudges of the queue go out before its task
  pass. -/
  | poll (instant : IsoTimestamp) (polls : Polls) (readable : TeamName → Bool) (openMail : MemberKey → Bool)
    (drained : Nat)
  | remind (now : IsoTimestamp)
  | candidate (inputs : TurnInputs)
  | finish
  | observe (instant : IsoTimestamp) (member : MemberKey) (next : Option RuntimeMemberState)
  | replaceRoster (team : TeamName) (agents : List AgentName)
  | ledger (instant : IsoTimestamp) (step : LifeStep)

/-- Members that stay keep their runtime state. -/
def replaceMembers (team : TeamName) (agents : List AgentName) (roster : MemberKey → Option MemberRuntime)
    (member : MemberKey) : Option MemberRuntime :=
  if member.team = team then
    if member.agent ∈ agents then some ((roster member).getD .default) else none
  else roster member

/-- One step at the clock of the daemon; a step from the past is not made, nor one that the tick is not up to. -/
def WakeStep.apply (world : World) (port : RenderPort) (step : WakeStep) (pump : WakePump) : WakePump :=
  match step with
  | .poll instant polls readable openMail drained =>
    if pump.clock.nanos ≤ instant.nanos ∧ pump.tick.isNone = true then
      let (polled, observations) := pollMembers instant polls.results { pump with clock := instant }
      { polled with
        prompted := drained
        tick := some ⟨openTasksByMember readable polled.db, openMail, none, observations⟩ }
    else pump
  | .remind now =>
    match pump.tick with
    | some tick =>
      if pump.clock.nanos ≤ now.nanos ∧ tick.now.isNone = true then
        { pump with clock := now, tick := some { tick with now := some now } }
      else pump
    | none => pump
  | .candidate inputs =>
    match pump.tick with
    | some ⟨openTasks, openMail, some now, first :: remaining⟩ =>
      { pump with tick := some ⟨openTasks, openMail, some now, remaining⟩ }.processTaskCandidate world port inputs
        ⟨openTasks, openMail, some now, remaining⟩ now first
    | _ => pump
  | .finish => { pump with tick := none }
  | .observe instant member next =>
    if pump.clock.nanos ≤ instant.nanos then
      { pump with
        clock := instant
        roster := Function.update pump.roster member ((pump.roster member).map (applyRuntimeObservation next instant)) }
    else pump
  | .replaceRoster team agents => { pump with roster := replaceMembers team agents pump.roster }
  | .ledger instant step =>
    if pump.clock.nanos ≤ instant.nanos then { pump with clock := instant, db := step.apply world pump.db } else pump

def WakePump.run (world : World) (port : RenderPort) (steps : List WakeStep) (pump : WakePump) : WakePump :=
  steps.foldl (fun pump step => step.apply world port pump) pump

def WakePump.start (db : Db) (roster : MemberKey → Option MemberRuntime) (clock : IsoTimestamp) : WakePump where
  db := db
  roster := roster
  episodes := fun _ => none
  absences := fun _ => none
  clock := clock
  tick := none
  prompted := 0
  log := []

end AtmCore
