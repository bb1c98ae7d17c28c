import AtmCore.PromptSpacing

/-! When an escalation counts as reported. A mail that cannot be written is counted in the outcome of the escalation,
and the outcome is a success all the same: the stalled task is marked as notified, and the episode stays marked as
reported. They stay due only if something else fails with the mail, the audit of the task or the read of a recipient's
mailbox. -/

namespace AtmCore

open List Option

/-- There was mail to write, and none of it was written. -/
def EscalationResult.allFailed (result : EscalationResult) : Bool :=
  decide (0 < result.outcome.recipientsFailed) && decide (result.outcome.recipientsWritten = 0)

def anyMailAccepted (world : World) (port : RenderPort) (inputs : EscalationInputs) (team : TeamName) (summary : String)
    (since : Option IsoTimestamp) : List AgentAddress → Db → Bool
  | [], _ => false
  | recipient :: rest, db =>
    if shouldSuppress inputs recipient team summary since db then
      anyMailAccepted world port inputs team summary since rest db
    else
      let result := writeEscalationMail world port inputs false team recipient summary db
      result.1.toBool || anyMailAccepted world port inputs team summary since rest result.2

/-- One of the recipients of an episode has a mailbox that cannot be read. -/
def anyMailboxUnreadable (inputs : EscalationInputs) (team : TeamName) (recipients : List AgentAddress) : Bool :=
  recipients.any (fun recipient => !(inputs.mailboxRead ⟨team, recipient.agent⟩).toBool)

def anyTerminalMailAccepted (world : World) (port : RenderPort) (inputs : EscalationInputs) (team : TeamName)
    (summary : String) (startedAt : IsoTimestamp) : List AgentAddress → Db → Bool
  | [], _ => false
  | recipient :: rest, db =>
    match inputs.mailboxRead ⟨team, recipient.agent⟩ with
    | .error _ => false
    | .ok now =>
      if alreadyReported now ⟨team, recipient.agent⟩ summary startedAt db then
        anyTerminalMailAccepted world port inputs team summary startedAt rest db
      else
        let result := writeEscalationMail world port inputs true team recipient summary db
        result.1.toBool || anyTerminalMailAccepted world port inputs team summary startedAt rest result.2

@[simp] theorem EscalationOutcome.written_recipientsWritten (outcome : EscalationOutcome)
    {recipient : AgentName} {messageId : AtmMessageId} :
    (outcome.written recipient messageId).recipientsWritten = outcome.recipientsWritten + 1 := rfl

@[simp] theorem EscalationOutcome.failed_recipientsWritten (outcome : EscalationOutcome) :
    outcome.failed.recipientsWritten = outcome.recipientsWritten := rfl

section Outcomes

variable {world : World} {port : RenderPort} {inputs : EscalationInputs} {team : TeamName} {summary : String}
  (since : Option IsoTimestamp) (startedAt : IsoTimestamp) (recipients : List AgentAddress)
  (outcome : EscalationOutcome) (db : Db)

theorem written_le :
    outcome.recipientsWritten ≤
      (writeToEscalationRecipients world port inputs team summary since recipients outcome db).1.recipientsWritten := by
  fun_induction writeToEscalationRecipients world port inputs team summary since recipients outcome db with
  | case1 => exact le_refl _
  | case2 _ _ _ _ _ ih | case4 _ _ _ _ _ _ _ _ ih => exact ih
  | case3 _ _ _ _ _ _ _ _ ih => exact le_trans (by simp) ih

theorem written_of_accepted (h : anyMailAccepted world port inputs team summary since recipients db = true) :
    0 < (writeToEscalationRecipients world port inputs team summary since recipients outcome
      db).1.recipientsWritten := by
  induction recipients generalizing outcome db with
  | nil => cases h
  | cons recipient rest ih =>
    rw [anyMailAccepted] at h
    rw [writeToEscalationRecipients]
    split
    · next hsuppress =>
      rw [if_pos hsuppress] at h
      exact ih outcome db h
    · next hsuppress =>
      rw [if_neg hsuppress] at h
      dsimp only at h ⊢
      split
      · exact lt_of_lt_of_le (by simp) (written_le since rest (outcome.written _ _) _)
      · next hfail =>
        rw [hfail] at h
        exact ih _ _ h

theorem terminal_written_le : outcome.recipientsWritten ≤
      (writeTerminalEscalations world port inputs team summary startedAt recipients outcome
        db).1.outcome.recipientsWritten := by
  fun_induction writeTerminalEscalations world port inputs team summary startedAt recipients outcome db with
  | case1 | case2 => exact le_refl _
  | case3 _ _ _ _ _ _ _ ih | case5 _ _ _ _ _ _ _ _ _ _ ih => exact ih
  | case4 _ _ _ _ _ _ _ _ _ _ ih => exact le_trans (by simp) ih

theorem terminal_written_of_accepted
    (h : anyTerminalMailAccepted world port inputs team summary startedAt recipients db = true) :
    0 < (writeTerminalEscalations world port inputs team summary startedAt recipients outcome
      db).1.outcome.recipientsWritten := by
  induction recipients generalizing outcome db with
  | nil => cases h
  | cons recipient rest ih =>
    rw [anyTerminalMailAccepted] at h
    rw [writeTerminalEscalations]
    split
    · next hread =>
      rw [hread] at h
      cases h
    · next now hread =>
      rw [hread] at h
      dsimp only at h
      split
      · next hrep =>
        rw [if_pos hrep] at h
        exact ih outcome db h
      · next hrep =>
        rw [if_neg hrep] at h
        dsimp only
        split
        · exact lt_of_lt_of_le (by simp) (terminal_written_le startedAt rest (outcome.written _ _) _)
        · next hfail =>
          rw [hfail] at h
          exact ih _ _ h

/-- A mailbox that cannot be read makes the escalation of an episode fail. -/
theorem error_of_unreadable (h : anyMailboxUnreadable inputs team recipients = true) :
    (writeTerminalEscalations world port inputs team summary startedAt recipients outcome db).1.error.isSome =
      true := by
  induction recipients generalizing outcome db with
  | nil => cases h
  | cons recipient rest ih =>
    rw [anyMailboxUnreadable, any_cons] at h
    rw [writeTerminalEscalations]
    split
    · rfl
    · next now hread =>
      rw [hread] at h
      split
      · exact ih outcome db h
      · dsimp only
        split
        · exact ih _ _ h
        · exact ih _ _ h

end Outcomes

def WakeEvent.allFailed : WakeEvent → Bool
  | .escalated _ _ _ result => result.allFailed
  | _ => false

/-- The escalation is due as before: the row of the task is as it was, so that a tick that finds it at the head of an
idle member's queue escalates it again; and the episode is new at its next observation, which escalates it again. -/
def StaysDue (pump next : WakePump) (candidate : MemberObservation) : WakeEvent → Prop
  | .escalated .taskStalled member (some taskId) _ =>
    next.db.tasks.find? (member.team, taskId) = pump.db.tasks.find? (member.team, taskId) ∧
    ∀ row, selectTaskRow next.db.tasks member.team taskId = .ok (some row) →
      ∀ mailPending now activeSince newEpisode refusals, refusals < taskConsecutiveRefusalThreshold →
        dispose mailPending .idle (some row) now activeSince newEpisode refusals = .escalateStalled
  | .escalated .blockedEscalated member _ _ | .escalated .offlineEscalated member _ _ =>
    (observeTransition next.episodes member candidate.state candidate.stateChangedAt).1 = true ∧
    ∀ mailPending row now refusals, ∃ kind,
      dispose mailPending candidate.state (some row) now candidate.stateChangedAt true refusals = .escalateEpisode kind
  | _ => True

/-- When no mail of an escalation is written, the audit of the stalled task is not written either, or the mailbox of
one of the recipients of the episode cannot be read. -/
structure Surfaces (world : World) (port : RenderPort) (inputs : TurnInputs) (candidate : MemberObservation)
    (head : Option TaskRow) (pump : WakePump) : Prop where
  stalled : ∀ row roster recipients, head = some row → escalationDue row = true →
    inputs.escalation.roster = .ok roster → inputs.escalation.recipients = .ok recipients →
    anyMailAccepted world port inputs.escalation row.team
        (escalationSummary .taskStalled ⟨row.team, row.assignee⟩ (some row.taskId)) none
        (escalationRecipients .taskStalled row.team roster recipients) pump.db = true ∨
      inputs.ledgerError.isSome = true
  episode : ∀ runtime stateName startedAt roster recipients, pump.roster candidate.member = some runtime →
    terminalEpisode runtime = .ok (stateName, startedAt) →
    inputs.escalation.roster = .ok roster → inputs.escalation.recipients = .ok recipients →
    anyTerminalMailAccepted world port inputs.escalation candidate.member.team
        s!"escalation:{stateName}_escalated:{candidate.member.text}" startedAt
        (terminalEscalationRecipients candidate.member.team roster recipients) pump.db = true ∨
      anyMailboxUnreadable inputs.escalation candidate.member.team
        (terminalEscalationRecipients candidate.member.team roster recipients) = true

/-- The condition on a step: the turn of a member surfaces its failures. -/
def WakeStep.Surfaces (world : World) (port : RenderPort) (pump : WakePump) : WakeStep → Prop
  | .candidate inputs => ∀ tick candidate, pump.tick = some tick → tick.remaining.head? = some candidate →
    AtmCore.Surfaces world port inputs candidate (tick.openTasks candidate.member).head? pump
  | _ => True

variable {row : TaskRow} {state : RuntimeMemberState} {activeSince : Option IsoTimestamp} {kind : EpisodeKind}

section Turns

variable {world : World} {port : RenderPort} {inputs : TurnInputs} {pump next : WakePump}
  {candidate : MemberObservation}
  {now : IsoTimestamp} {head : Option TaskRow} {mailPending newEpisode : Bool} {refusals : Nat}
  {taskId : TaskId} {write : ReminderWrite} {events : List WakeEvent}

theorem dispose_eq_stalled
    (h : dispose mailPending state (some row) now activeSince newEpisode refusals = .escalateStalled) :
    state = .idle ∧ refusals < taskConsecutiveRefusalThreshold ∧ escalationDue row = true := by
  cases state with
  | idle =>
    rw [dispose] at h
    split at h
    · cases h
    · split at h
      · cases h
      · next hrefusals =>
        split at h
        · next hdue => exact ⟨rfl, Nat.lt_of_not_le hrefusals, hdue⟩
        · repeat' (first | cases h | split at h)
  | active | blocked | offline | unknown | identityConflict =>
    rw [dispose.eq_def] at h
    dsimp only at h
    repeat' (first | cases h | split at h)

theorem dispose_eq_episode
    (h : dispose mailPending state (some row) now activeSince newEpisode refusals = .escalateEpisode kind) :
    episodeKindOf state = some kind := by
  cases state with
  | blocked | offline =>
    rw [dispose.eq_def] at h
    dsimp only at h
    split at h
    · obtain rfl := TaskDisposition.escalateEpisode.inj h
      rfl
    · cases h
  | idle | active | unknown | identityConflict =>
    rw [dispose.eq_def] at h
    dsimp only at h
    repeat' (first | cases h | split at h)

/-- A stalled task is escalated again, whatever else is observed. -/
theorem dispose_of_due (hdue : escalationDue row = true) (hrefusals : refusals < taskConsecutiveRefusalThreshold) :
    dispose mailPending .idle (some row) now activeSince newEpisode refusals = .escalateStalled := by
  have hassigned : row.state = .assigned := by
    simp only [escalationDue, Bool.and_eq_true, decide_eq_true_eq] at hdue
    exact hdue.1.1
  rw [dispose, if_neg (by rw [hassigned]; exact fun h => by cases h), if_neg (Nat.not_le_of_lt hrefusals), if_pos hdue]

theorem dispose_of_episode (h : episodeKindOf state = some kind) :
    dispose mailPending state (some row) now activeSince true refusals = .escalateEpisode kind := by
  cases state with
  | blocked | offline =>
    cases h
    rfl
  | idle | active | unknown | identityConflict => cases h

theorem writeLedger_log {member : MemberKey} :
    ∃ events, (pump.writeLedger inputs member taskId write).log = pump.log ++ events ∧
      ∀ event ∈ events, event.allFailed = false := by
  rw [WakePump.writeLedger]
  split
  · exact ⟨[], (append_nil _).symm, fun _ h => by cases h⟩
  · refine ⟨[.ledgerFailed member], rfl, fun event hev => ?_⟩
    rw [mem_singleton.mp hev]
    rfl

/-- What a turn adds to the log, and that what failed of it stays due. -/
def LeavesDue (pump next : WakePump) (candidate : MemberObservation) : Prop :=
  ∃ events, next.log = pump.log ++ events ∧ ∀ event ∈ events, event.allFailed = true →
    StaysDue pump next candidate event

theorem LeavesDue.of_quiet (hlog : next.log = pump.log ++ events)
    (hquiet : ∀ event ∈ events, event.allFailed = false) : LeavesDue pump next candidate :=
  ⟨events, hlog, fun event hev hfail => by rw [hquiet event hev] at hfail; cases hfail⟩

theorem LeavesDue.refl : LeavesDue pump pump candidate :=
  .of_quiet (append_nil _).symm (fun _ h => by cases h)

theorem not_allFailed_default {error : Option AtmError} :
    EscalationResult.allFailed ⟨error, EscalationOutcome.default⟩ = false := rfl

theorem ledgerError_of_allFailed (hsurfaces : Surfaces world port inputs candidate (some row) pump)
    (hdue : escalationDue row = true)
    (h : (escalateMail world port inputs.escalation ⟨row.team, row.assignee⟩ .taskStalled
      (some row.taskId) none pump.db).1.allFailed = true) : inputs.ledgerError.isSome = true := by
  rw [escalateMail] at h
  split at h
  · rw [not_allFailed_default] at h
    cases h
  · rw [not_allFailed_default] at h
    cases h
  · next roster recipients hroster hrecipients =>
    refine (hsurfaces.stalled row roster recipients rfl hdue hroster hrecipients).resolve_left (fun haccepted => ?_)
    simp only [EscalationResult.allFailed, Bool.and_eq_true, decide_eq_true_eq] at h
    have hwr := written_of_accepted none _ .default pump.db haccepted
    omega

theorem escalateStalledTask_due (hsurfaces : Surfaces world port inputs candidate (some row) pump)
    (hdue : escalationDue row = true) :
    LeavesDue pump (pump.escalateStalledTask world port inputs row now) candidate := by
  have hfail := ledgerError_of_allFailed hsurfaces hdue
  rw [WakePump.escalateStalledTask]
  split
  · next hstalled =>
    rw [Bool.and_eq_true] at hstalled
    obtain ⟨current, hsel, hcurrentDue⟩ := exists_currentStalledTask hstalled.2
    have hledger := @escalateMail_sameLedger world port inputs.escalation ⟨row.team, row.assignee⟩ .taskStalled
      (some row.taskId) none pump.db
    dsimp only
    generalize escalateMail world port inputs.escalation ⟨row.team, row.assignee⟩ .taskStalled (some row.taskId) none
      pump.db = result at hfail hledger ⊢
    obtain ⟨⟨error, outcome⟩, written⟩ := result
    -- the row is as it was when nothing but mail was tried
    have hstays : ∀ next : WakePump, next.db = written →
        StaysDue pump next candidate (.escalated .taskStalled ⟨row.team, row.assignee⟩ (some row.taskId)
          ⟨error, outcome⟩) := by
      intro next hdb
      refine ⟨by rw [hdb, hledger.tasks], fun found hf _ _ _ _ _ hrefusals => dispose_of_due ?_ hrefusals⟩
      rw [hdb, hledger.tasks, hsel] at hf
      exact some.inj (Except.ok.inj hf) ▸ hcurrentDue
    cases error with
    | some error =>
      refine ⟨_, rfl, fun event hev _ => ?_⟩
      rw [mem_singleton.mp hev]
      exact hstays _ rfl
    | none =>
      by_cases hall : EscalationResult.allFailed ⟨none, outcome⟩ = true
      · obtain ⟨error, herr⟩ := isSome_iff_exists.mp (hfail hall)
        rw [WakePump.writeLedger, herr]
        refine ⟨[.escalated .taskStalled ⟨row.team, row.assignee⟩ (some row.taskId) ⟨none, outcome⟩,
          .ledgerFailed ⟨row.team, row.assignee⟩], by rw [append_assoc]; rfl, fun event hev hevs => ?_⟩
        rcases mem_cons.mp hev with rfl | hev
        · exact hstays _ rfl
        · rw [mem_singleton.mp hev] at hevs
          cases hevs
      · obtain ⟨events, hlog, hquiet⟩ := writeLedger_log
        refine .of_quiet (hlog.trans (append_assoc ..)) (fun event hev => ?_)
        rcases mem_cons.mp hev with rfl | hev
        · exact Bool.not_eq_true _ ▸ hall
        · exact hquiet event hev
  · exact .refl

theorem error_of_allFailed {kind : EpisodeKind} {since : IsoTimestamp} {result : EscalationResult × Db}
    (hsurfaces : Surfaces world port inputs candidate head pump)
    (hresult : escalateEpisodeMail world port inputs.escalation
      (pump.roster candidate.member) candidate.member kind since pump.db = result)
    (h : result.1.allFailed = true) : result.1.error.isSome = true := by
  subst hresult
  rw [escalateEpisodeMail] at h ⊢
  split
  · rfl
  · next hsupports =>
    rw [hsupports] at h
    cases h
  rename_i hsupports
  rw [hsupports] at h
  unfold writeTerminalEpisode at h ⊢
  split
  · rfl
  rename_i runtime hrt
  rw [hrt] at h
  dsimp only at h
  split
  · rfl
  rename_i stateName startedAt hepisode
  rw [hepisode] at h
  dsimp only at h
  split
  · rfl
  rename_i hopen
  rw [if_neg hopen] at h
  split
  · rfl
  · rfl
  rename_i roster recipients hroster hrecipients
  rw [hroster, hrecipients] at h
  refine error_of_unreadable startedAt _ _ _ ?_
  refine (hsurfaces.episode runtime stateName startedAt roster recipients hrt hepisode hroster
    hrecipients).resolve_left ?_
  intro haccepted
  simp only [EscalationResult.allFailed, Bool.and_eq_true, decide_eq_true_eq] at h
  have hwr := terminal_written_of_accepted startedAt _ .default pump.db haccepted
  omega

theorem escalateEpisode_due {since : IsoTimestamp} (hsurfaces : Surfaces world port inputs candidate head pump)
    (hkind : episodeKindOf candidate.state = some kind) :
    LeavesDue pump (pump.escalateEpisode world port inputs candidate.member taskId kind since) candidate := by
  have herr := fun result => @error_of_allFailed world port inputs pump candidate head kind since result hsurfaces
  rw [WakePump.escalateEpisode]
  split
  · split
    · split
      · dsimp only
        generalize hresult : escalateEpisodeMail world port inputs.escalation (pump.roster candidate.member)
          candidate.member kind since pump.db = result
        obtain ⟨⟨error, outcome⟩, written⟩ := result
        cases error with
        | some error =>
          refine ⟨_, rfl, fun event hev _ => ?_⟩
          rw [mem_singleton.mp hev]
          have hnew : (observeTransition (holdTargetsUnavailable pump.episodes candidate.member) candidate.member
              candidate.state candidate.stateChangedAt).1 = true := by
            rw [observeTransition, hkind]
            simp [holdTargetsUnavailable]
          cases kind with
          | blocked => exact ⟨hnew, fun _ _ _ _ => ⟨.blocked, dispose_of_episode hkind⟩⟩
          | offline => exact ⟨hnew, fun _ _ _ _ => ⟨.offline, dispose_of_episode hkind⟩⟩
        | none =>
          refine .of_quiet rfl (fun event hev => ?_)
          rw [mem_singleton.mp hev]
          exact Bool.eq_false_iff.mpr (fun hall => by cases herr _ hresult hall)
      · exact .refl
    · exact .refl
  · exact .refl

theorem emitTaskReminder_quiet :
    LeavesDue pump (pump.emitTaskReminder inputs candidate.member row now) candidate := by
  rw [WakePump.emitTaskReminder]
  split
  · exact .refl
  · split
    · obtain ⟨events, hlog, hevs⟩ := writeLedger_log
      exact .of_quiet hlog hevs
    · exact .refl
    · split
      · split
        · obtain ⟨events, hlog, hevs⟩ := writeLedger_log
          refine .of_quiet (hlog.trans (append_assoc ..)) (fun event hev => ?_)
          rcases mem_cons.mp hev with rfl | hev
          · rfl
          · exact hevs event hev
        · exact .refl
      · exact .refl

theorem applyTaskDisposition_due (hsurfaces : Surfaces world port inputs candidate head pump)
    {disposition : TaskDisposition}
    (hdispose : dispose mailPending candidate.state head now candidate.stateChangedAt newEpisode refusals =
      disposition) :
    LeavesDue pump (pump.applyTaskDisposition world port inputs candidate head now disposition) candidate := by
  rw [WakePump.applyTaskDisposition.eq_def]
  cases head with
  | none => exact .refl
  | some row =>
    cases disposition with
    | hold reason => exact .refl
    | escalateEpisode kind => exact escalateEpisode_due hsurfaces (dispose_eq_episode hdispose)
    | escalateStalled => exact escalateStalledTask_due hsurfaces (dispose_eq_stalled hdispose).2.2
    | nudge => exact emitTaskReminder_quiet
    | resetReminders =>
      obtain ⟨events, hlog, hevs⟩ := writeLedger_log
      exact .of_quiet hlog hevs

/-- What stays due does so from an earlier pump with the same ledger. -/
theorem LeavesDue.earlier {earlier : WakePump} (h : LeavesDue pump next candidate)
    (hledger : SameLedger earlier.db pump.db) (hlog : pump.log = earlier.log ++ events)
    (hevs : ∀ event ∈ events, ∀ later, StaysDue earlier later candidate event) : LeavesDue earlier next candidate := by
  obtain ⟨more, hmore, hdue⟩ := h
  refine ⟨events ++ more, by rw [hmore, hlog, append_assoc], fun event hev hfail => ?_⟩
  rcases mem_append.mp hev with hev | hev
  · exact hevs event hev next
  · have hstays := hdue event hev hfail
    unfold StaysDue at hstays ⊢
    split
    · rw [← hledger.tasks]
      exact hstays
    · exact hstays
    · exact hstays
    · trivial

/-- The check of the refusals: it does nothing, or escalates that there are too many. -/
theorem refusalCheck_cases {checked : WakePump}
    (h : pump.refusalCheck world port inputs candidate.member = some (refusals, checked)) :
    checked = pump ∨ taskConsecutiveRefusalThreshold ≤ refusals ∧
      ∃ since, checked = pump.escalateRefusals world port inputs candidate.member since := by
  rw [WakePump.refusalCheck] at h
  split at h
  · split at h
    · next since _ =>
      cases h
      split
      · next hmany => exact .inr ⟨hmany, since, rfl⟩
      · exact .inl rfl
    · cases h
      exact .inl rfl
  · cases h

theorem dispose_of_refusals {row : TaskRow} {activeSince : Option IsoTimestamp}
    (h : taskConsecutiveRefusalThreshold ≤ refusals) :
    ∃ reason, dispose mailPending .idle (some row) now activeSince newEpisode refusals = .hold reason := by
  rw [dispose]
  by_cases hact : row.state = .active
  · simp [hact]
  · simp [hact, h]

theorem processTaskCandidate_due (tick : WakeTick)
    (hsurfaces : Surfaces world port inputs candidate (tick.openTasks candidate.member).head? pump) :
    LeavesDue pump (pump.processTaskCandidate world port inputs tick now candidate) candidate := by
  have hsame : ∀ episodes : Episodes,
      Surfaces world port inputs candidate (tick.openTasks candidate.member).head? { pump with episodes := episodes } :=
    fun _ => ⟨hsurfaces.stalled, hsurfaces.episode⟩
  have hnone : ∀ event ∈ ([] : List WakeEvent), ∀ later, StaysDue pump later candidate event := fun _ h => by cases h
  rw [WakePump.processTaskCandidate]
  split
  · exact (applyTaskDisposition_due (hsame _) rfl).earlier (.refl _) (append_nil _).symm hnone
  · next hdirect =>
    obtain ⟨hidle, hhead⟩ := not_or.mp hdirect
    obtain ⟨row, hrow⟩ := ne_none_iff_exists'.mp (fun hnone => hhead (isNone_iff_eq_none.mpr hnone))
    split
    · exact .of_quiet (append_nil _).symm (fun _ h => by cases h)
    · next refusals checked hcheck =>
      rcases refusalCheck_cases hcheck with rfl | ⟨hmany, since, rfl⟩
      · exact (applyTaskDisposition_due (hsame _) rfl).earlier (.refl _) (append_nil _).symm hnone
      · obtain ⟨reason, hhold⟩ := @dispose_of_refusals now (tick.openMail candidate.member)
          (observeEscalationEpisodeIfEligible pump.episodes candidate.member candidate.state candidate.stateChangedAt
            (tick.openTasks candidate.member).head?.isSome).1 refusals row candidate.stateChangedAt hmany
        rw [hrow, not_not.mp hidle]
        rw [hrow, not_not.mp hidle] at hhold
        rw [hhold]
        refine ⟨_, rfl, fun event hev _ => ?_⟩
        rw [mem_singleton.mp hev]
        trivial

end Turns

theorem pollMembers_log (instant : IsoTimestamp) (polls : List (MemberKey × PollResult)) (pump : WakePump) :
    (pollMembers instant polls pump).1.log = pump.log := by
  induction polls generalizing pump with
  | nil => rfl
  | cons poll polls ih =>
    calc (pollMembers instant (poll :: polls) pump).1.log = (pollMember instant poll pump).1.log := ih _
      _ = pump.log := by
        rw [pollMember.eq_def]
        split <;> rfl

/-- In every run of the pump, for every turn that surfaces its failures: an escalation of a stalled task or of an
episode with mail to write, of which none was written, stays due. -/
theorem failed_escalation_stays_due (world : World) (port : RenderPort) (db : Db)
    (roster : MemberKey → Option MemberRuntime) (clock : IsoTimestamp) (steps : List WakeStep) (step : WakeStep)
    (hsurfaces : step.Surfaces world port ((WakePump.start db roster clock).run world port steps)) :
    ∃ events, (step.apply world port ((WakePump.start db roster clock).run world port steps)).log =
        ((WakePump.start db roster clock).run world port steps).log ++ events ∧
      ∀ event ∈ events, event.allFailed = true → ∃ tick candidate,
        ((WakePump.start db roster clock).run world port steps).tick = some tick ∧
        tick.remaining.head? = some candidate ∧
        StaysDue ((WakePump.start db roster clock).run world port steps)
          (step.apply world port ((WakePump.start db roster clock).run world port steps)) candidate event := by
  generalize (WakePump.start db roster clock).run world port steps = pump at hsurfaces ⊢
  have hquiet : ∀ next : WakePump, next.log = pump.log → ∃ events, next.log = pump.log ++ events ∧
      ∀ event ∈ events, event.allFailed = true → ∃ tick candidate, pump.tick = some tick ∧
        tick.remaining.head? = some candidate ∧ StaysDue pump next candidate event :=
    fun next hlog => ⟨[], by rw [hlog, append_nil], fun _ h => by cases h⟩
  cases step with
  | candidate inputs =>
    rw [WakeStep.apply]
    split
    · next openTasks openMail now first remaining htick =>
      have hturn := hsurfaces _ first htick rfl
      obtain ⟨events, hlog, hdue⟩ := @processTaskCandidate_due world port inputs
        { pump with tick := some ⟨openTasks, openMail, some now, remaining⟩ } first now
        ⟨openTasks, openMail, some now, remaining⟩ ⟨hturn.stalled, hturn.episode⟩
      exact ⟨events, hlog, fun event hevent hfailed => ⟨_, first, htick, rfl, hdue event hevent hfailed⟩⟩
    · exact hquiet pump rfl
  | poll instant polls readable openMail drained =>
    refine hquiet _ ?_
    rw [WakeStep.apply]
    split
    · exact pollMembers_log instant polls.results _
    · rfl
  | remind now =>
    refine hquiet _ ?_
    rw [WakeStep.apply]
    split
    · split <;> rfl
    · rfl
  | finish | replaceRoster => exact hquiet _ rfl
  | observe | ledger =>
    refine hquiet _ ?_
    rw [WakeStep.apply]
    split <;> rfl

/-- The member was reminded ten times of a task it did not start. -/
def sampleStalled : Db := live .accepting (.store (sampleAssignment 1 sampleTask) ::
  List.replicate 10 (.store (.remind .natural sampleMemberKey sampleTask (.reminded ⟨0⟩ .emitted)))) .empty

/-- The one lead cannot be written to. -/
def sampleUnsent (ledgerError : Option AtmError) : TurnInputs :=
  { sampleTurn with
    ledgerError := ledgerError
    escalation := { sampleTurn.escalation with roster := .ok ⟨[sampleLead, sampleMember], [sampleLead]⟩ } }

/-- A tick up to the turn of the member. -/
def sampleTurnStart (instant : IsoTimestamp) : List WakeStep :=
  [.poll instant samplePolls (fun _ => true) (fun _ => false) 0,
    .remind instant]

/-- A pump over the stalled task, whose assignee is in a state. -/
def sampleReporting (state : RuntimeMemberState) : WakePump :=
  .start sampleStalled (fun _ => some ⟨state, some ⟨0⟩⟩) ⟨0⟩

def sampleEscalated (kind : EscalationKind) (task : Option TaskId) : WakeEvent :=
  .escalated kind sampleMemberKey task ⟨none, ⟨none, 0, 1⟩⟩

def leadNotifiedCountOf (pump : WakePump) : Option Nat :=
  (pump.db.tasks.find? (sampleTeam, sampleTask)).map TaskColumns.leadNotifiedCount

/-- The pump before the turn, and after it, when the audit is lost as well. -/
def sampleBeforeTurn : WakePump := (sampleReporting .idle).run .accepting samplePort (sampleTurnStart ⟨0⟩)

def sampleAfterTurn : WakePump :=
  (WakeStep.candidate (sampleUnsent (some (.validation "readonly")))).apply .accepting samplePort sampleBeforeTurn

theorem unwritten_audit_stays_due :
    sampleAfterTurn.log = [sampleEscalated .taskStalled (some sampleTask), .ledgerFailed sampleMemberKey] ∧
    (sampleEscalated .taskStalled (some sampleTask)).allFailed = true ∧
    ∃ events, sampleAfterTurn.log = sampleBeforeTurn.log ++ events ∧
      ∀ event ∈ events, event.allFailed = true → ∃ tick candidate, sampleBeforeTurn.tick = some tick ∧
        tick.remaining.head? = some candidate ∧ StaysDue sampleBeforeTurn sampleAfterTurn candidate event := by
  refine ⟨by decide +kernel, by decide +kernel,
    failed_escalation_stays_due .accepting samplePort sampleStalled _ ⟨0⟩ (sampleTurnStart ⟨0⟩) _ ?_⟩
  intro tick candidate htick hhead
  refine ⟨fun row roster recipients _ _ _ _ => .inr rfl,
    fun runtime stateName startedAt roster recipients hruntime hepisode => ?_⟩
  obtain rfl : MemberRuntime.mk .idle (some ⟨0⟩) = runtime := some.inj hruntime
  cases hepisode

theorem unsent_escalation_counts_as_reported : (sampleEscalated .taskStalled (some sampleTask)).allFailed = true ∧
    leadNotifiedCountOf (sampleReporting .idle) = some 0 ∧ ((sampleReporting .idle).run .accepting samplePort
      (sampleTurnStart ⟨0⟩ ++ [.candidate (sampleUnsent none), .finish])).log =
        [sampleEscalated .taskStalled (some sampleTask)] ∧
    leadNotifiedCountOf ((sampleReporting .idle).run .accepting samplePort
      (sampleTurnStart ⟨0⟩ ++ [.candidate (sampleUnsent none), .finish])) = some 1 ∧
    (sampleEscalated .blockedEscalated none).allFailed = true ∧
    ((sampleReporting .blocked).run .accepting samplePort
      (sampleTurnStart ⟨0⟩ ++ [.candidate (sampleUnsent none), .finish])).log =
        [sampleEscalated .blockedEscalated none] ∧
    ((sampleReporting .blocked).run .accepting samplePort
      (sampleTurnStart ⟨0⟩ ++ [.candidate (sampleUnsent none), .finish] ++
        sampleTurnStart ⟨60000000000⟩ ++ [.candidate (sampleUnsent none), .finish])).log =
          [sampleEscalated .blockedEscalated none] := by
  refine ⟨by decide +kernel, by decide +kernel, by decide +kernel, by decide +kernel, by decide +kernel,
    by decide +kernel, ?_⟩
  decide +kernel

end AtmCore
