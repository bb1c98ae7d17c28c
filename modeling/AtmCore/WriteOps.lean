import AtmCore.TemplateOps

/-! The operations of the writer and their execution. Every operation that carries a provenance passes the
cron fence before it touches a table. -/

namespace AtmCore

open Rows

structure AcknowledgementSource where
  team : TeamName
  agent : AgentName
  messageId : AtmMessageId
  deriving DecidableEq

/-- The maker of the reply of an acknowledgement. It sees the source and not the store, so an error of it
has no failure of SQLite behind it. -/
structure AcknowledgementReplyBuilder where
  buildReply : Message → Outcome Message
  buildReply_cause : ∀ source error, buildReply source = .error (.err error) → error.cause = none

inductive WriteOp where
  | applyReadDisplayState (mailbox : MailboxScope) (messageIds : List MessageKey)
      (seenWatermark : Option IsoTimestamp) (provenance : MessageWriteOrigin)
  | deleteMessage (key : MessageKey) (provenance : MessageWriteOrigin)
  | upsertMessage (record : Message) (provenance : MessageWriteOrigin)
  | upsertMessages (records : List Message)
  | acknowledge (source : AcknowledgementSource) (builder : AcknowledgementReplyBuilder)
      (provenance : MessageWriteOrigin)
  | taskMove (team : TeamName) (taskId : TaskId) (actor : AgentName) (target : MoveTarget)
      (instant : IsoTimestamp) (provenance : MessageWriteOrigin)
  | registerTemplate (request : TemplateRegistration)
  | admitDecomposedMessage (admission : DecomposedMessageAdmission)
  | admitTemplateMessage (admission : TemplateMessageAdmission)
  | recordDiagnostics (events : List DiagnosticEvent)
  | pruneDiagnostics (nowUnixMs : Int)

/-- The message of an admission, ordinary or from a template. -/
def WriteOp.admits : WriteOp → Option Message
  | upsertMessage record _ => some record
  | admitTemplateMessage admission => some admission.record
  | _ => none

inductive WriteOpResult where
  | readDisplayStateApplied
  | messageDeleted
  | upsertMessage (result : UpsertResult)
  | upsertMessages
  | acknowledged (reply source : Message)
  | taskMoved (record : TaskMoveRecord)
  | templateRegistration (outcome : TemplateRegistrationOutcome)
  | decomposedMessageAdmission (outcome : DecomposedMessageAdmissionOutcome)
  | templateMessageAdmission (result : UpsertResult)
  | diagnosticsRecorded
  | diagnosticsPruned (count : Nat)

def taskReminderIntervalMs : Nat := 60000

/-- `mark_message_read`, on the rows that are not deleted. -/
def markMessageRead (states : Table MessageStateRow.key) (key : MailKey) (updatedAt nextDue : IsoTimestamp) :
    Table MessageStateRow.key :=
  states.mapRows
    (fun row =>
      if row.key = key ∧ row.deletedAt = none then
        { row with
          read := true
          updatedAt := updatedAt
          nudgePendingAt :=
            if row.nudgePendingAt.isSome && row.pendingAckAt.isSome && row.acknowledgedAt.isNone then
              some nextDue
            else none }
      else row)
    (fun row => by split <;> rfl)

def markMessagesRead (mailbox : MailboxScope) (updatedAt nextDue : IsoTimestamp) :
    List MessageKey → Table MessageStateRow.key → Outcome (Table MessageStateRow.key)
  | [], states => .ok states
  | key :: keys, states =>
    if (states.find? (mailbox.team, mailbox.agent, key)).any (fun row => decide (row.deletedAt = none)) then
      markMessagesRead mailbox updatedAt nextDue keys
        (markMessageRead states (mailbox.team, mailbox.agent, key) updatedAt nextDue)
    else
      Outcome.fail (.mailboxRead
        s!"message {key.val} was not found for {mailbox.agent.val}@{mailbox.team.val} while applying read display state")

def executeReadDisplayState (ambient : Ambient) (mailbox : MailboxScope) (messageIds : List MessageKey)
    (seenWatermark : Option IsoTimestamp) (provenance : MessageWriteOrigin) (db : Db) : Outcome Db := do
  validateCronGenerationFence provenance db.cronSchedules
  let now := ambient.clock 0
  let states ← markMessagesRead mailbox now (now.addMillis taskReminderIntervalMs) messageIds
    db.messageStates
  let watermarks := match seenWatermark with
    | none => db.seenWatermarks
    | some watermark =>
      db.seenWatermarks.upsert ⟨mailbox, watermark⟩ (fun row => { row with watermark := watermark })
        (fun _ => rfl)
  return { db with messageStates := states, seenWatermarks := watermarks }

/-- Deletes a key from every mailbox. -/
def executeDeleteMessage (key : MessageKey) (provenance : MessageWriteOrigin) (db : Db) : Outcome Db := do
  validateCronGenerationFence provenance db.cronSchedules
  return { db with
    searchDocuments := db.searchDocuments.filterRows (fun row => decide (row.messageKey ≠ key))
    messageStates := db.messageStates.filterRows (fun row => decide (row.messageKey ≠ key))
    mailMessages := db.mailMessages.filterRows (fun row => decide (row.messageKey ≠ key)) }

def executeUpsertMessages (world : World) : Ambient → List Message → Db → Outcome Db
  | _, [], db => .ok db
  | ambient, record :: records, db => do
    let (_, db) ← upsertMessage world ambient record .local db
    executeUpsertMessages world (ambient.from admissionReadings) records db

def acknowledgementNotFound (source : AcknowledgementSource) : AtmError :=
  .validationWithRecovery
    s!"message {source.messageId.toText} was not found in {source.agent.val}@{source.team.val}; it is unknown or not addressed to the caller"
    "verify the message ID belongs to the caller's mailbox before retrying `atm ack`"

/-- The stored message and state of an acknowledgement source; a deleted state does not join. -/
def acknowledgementSourceRow (source : AcknowledgementSource) (db : Db) :
    Option (MailRow × MessageStateRow) := do
  let row ← db.mailMessages.rows.find? (fun row => decide (row.team = source.team) &&
    decide (row.agent = source.agent) && decide (row.messageId = some source.messageId))
  let state ← (db.messageStates.find? row.key).filter (fun state => decide (state.deletedAt = none))
  return (row, state)

def hasSuccessor (source : AcknowledgementSource) (db : Db) : Bool :=
  db.mailMessages.rows.any (fun row => decide (row.team = source.team) &&
    decide (row.agent = source.agent) && decide (row.parentMessageId = some source.messageId))

def loadPendingAckSource (source : AcknowledgementSource) (db : Db) : Outcome Message :=
  match acknowledgementSourceRow source db with
  | none => Outcome.fail (acknowledgementNotFound source)
  | some (row, state) =>
    if hasSuccessor source db then
      Outcome.fail (.validation
        s!"message {source.messageId.toText} has been updated; acknowledge the current terminal message instead")
    else if state.pendingAckAt.isNone then
      let described :=
        if state.acknowledgedAt.isSome then "already acknowledged" else "not pending acknowledgement"
      Outcome.fail (.validationWithRecovery
        s!"message {source.messageId.toText} is {described}"
        "only messages with a pending acknowledgement can be acknowledged; use `atm read --pending-ack` to inspect them")
    else
      .ok {
        team := source.team
        agent := source.agent
        messageKey := row.messageKey
        envelope := withState row.envelopeJson.decode state.read state.pendingAckAt state.acknowledgedAt
          state.expiresAt }

def executeAcknowledgement (world : World) (ambient : Ambient) (source : AcknowledgementSource)
    (builder : AcknowledgementReplyBuilder) (provenance : MessageWriteOrigin) (db : Db) :
    Outcome (Message × Message × Db) := do
  validateCronGenerationFence provenance db.cronSchedules
  let source ← loadPendingAckSource source db
  let reply ← builder.buildReply source
  let acknowledged := markSourceAcknowledged source (ambient.clock 0)
  let (_, db) ← upsertMessage world (ambient.from 1) reply .local db
  let (_, db) ← upsertMessage world (ambient.from (1 + admissionReadings)) acknowledged .local db
  return (reply, acknowledged, db)

def executeTaskMove (ambient : Ambient) (team : TeamName) (taskId : TaskId) (actor : AgentName)
    (target : MoveTarget) (instant : IsoTimestamp) (provenance : MessageWriteOrigin) (db : Db) :
    Outcome (TaskMoveRecord × Db) := do
  validateCronGenerationFence provenance db.cronSchedules
  applyTaskMove ambient team taskId actor target instant db

/-- `INSERT INTO diagnostic_events`, under the next row id. -/
def recordDiagnostic (events : List DiagnosticRow) (event : DiagnosticEvent) : List DiagnosticRow :=
  events ++ [⟨(events.map DiagnosticRow.id).foldr max 0 + 1, event⟩]

def diagnosticMaxAgeMs : Int := 7 * 24 * 60 * 60 * 1000
def diagnosticMaxRows : Nat := 20000
def diagnosticPruneBatch : Nat := 1000

/-- The rows one pruning pass deletes: a batch of expired ones, or else a batch of those beyond the
newest `diagnosticMaxRows`. -/
def prunedDiagnostics (nowUnixMs : Int) (events : List DiagnosticRow) : List DiagnosticRow :=
  let expired :=
    ((events.filter (fun row => decide (row.event.tsUnixMs < nowUnixMs - diagnosticMaxAgeMs))).insertionSort
    (fun r s => r.id ≤ s.id)).take diagnosticPruneBatch
  if expired.isEmpty then
    ((events.insertionSort (fun r s => s.event.tsUnixMs < r.event.tsUnixMs ∨
      (s.event.tsUnixMs = r.event.tsUnixMs ∧ s.id ≤ r.id))).drop diagnosticMaxRows).take diagnosticPruneBatch
  else expired

def executeDiagnosticPrune (nowUnixMs : Int) (db : Db) : Nat × Db :=
  let pruned := prunedDiagnostics nowUnixMs db.diagnosticEvents
  (pruned.length, { db with
    diagnosticEvents := db.diagnosticEvents.filter
      (fun row => !(pruned.any (fun gone => decide (gone.id = row.id)))) })

def execute (world : World) (ambient : Ambient) (op : WriteOp) (db : Db) : Outcome (WriteOpResult × Db) :=
  match op with
  | .applyReadDisplayState mailbox messageIds seenWatermark provenance => do
    let db ← executeReadDisplayState ambient mailbox messageIds seenWatermark provenance db
    return (.readDisplayStateApplied, db)
  | .deleteMessage key provenance => do
    let db ← executeDeleteMessage key provenance db
    return (.messageDeleted, db)
  | .upsertMessage record provenance => do
    let (result, db) ← upsertMessage world ambient record provenance db
    return (.upsertMessage result, db)
  | .upsertMessages records => do
    let db ← executeUpsertMessages world ambient records db
    return (.upsertMessages, db)
  | .acknowledge source builder provenance => do
    let (reply, source, db) ← executeAcknowledgement world ambient source builder provenance db
    return (.acknowledged reply source, db)
  | .taskMove team taskId actor target instant provenance => do
    let (record, db) ← executeTaskMove ambient team taskId actor target instant provenance db
    return (.taskMoved record, db)
  | .registerTemplate request => do
    let (outcome, db) ← executeTemplateRegistration world request db
    return (.templateRegistration outcome, db)
  | .admitDecomposedMessage admission => do
    let (outcome, db) ← executeDecomposedMessageAdmission world admission db
    return (.decomposedMessageAdmission outcome, db)
  | .admitTemplateMessage admission => do
    let (result, db) ← executeAdmitTemplateMessage world ambient admission db
    return (.templateMessageAdmission result, db)
  | .recordDiagnostics events =>
    .ok (.diagnosticsRecorded, { db with
      diagnosticEvents := events.foldl recordDiagnostic db.diagnosticEvents })
  | .pruneDiagnostics nowUnixMs =>
    let (count, db) := executeDiagnosticPrune nowUnixMs db
    .ok (.diagnosticsPruned count, db)

end AtmCore
