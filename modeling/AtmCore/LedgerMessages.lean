import AtmCore.Admission
import AtmCore.LedgerOps

/-! A message with a task id as steps of the ledger. What a message does is decided by the row it finds:
nothing for a report or a second close, one step for everything that is accepted, and one logged refusal
for a close by or to the wrong member. The mail tables are free to change around it. -/

namespace AtmCore

open Rows Fallible Advances

/-- An error of the writer's own checks: no constraint is behind it, and it is not audited. -/
def AtmError.Plain (error : AtmError) : Prop := error.cause = none ∧ isTaskRejection error.code = false

def Fault.plain : Fault → Prop
  | .panic => True
  | .err error => error.Plain

theorem Fault.spares_of_plain (fault : Fault) (h : fault.plain) : fault.sparesQueueIndex := by
  cases fault with
  | panic => trivial
  | err error => exact sparesQueueIndex_of_cause_none h.1

theorem ensures_lift_plain {α : Type} {x : Except AtmError α} (h : ∀ error, x = .error error → error.Plain) :
    Ensures Fault.plain (fun _ => True) (Outcome.lift x) := by
  cases x with
  | ok value => trivial
  | error error => exact h error rfl

variable {error : AtmError} {world : World} {record : Message} {db : Db} {ledger : Ledger} {taskId : TaskId}
  {upsert : Message → Db → Outcome Db} {row : TaskRow} {extra : List (String × Value)}

theorem messageClassification_error
    (h : messageClassification extra = .error error) : ∃ detail, error = .mailboxWrite detail := by
  have hstring : ∀ key, optionalString extra key = .error error → ∃ detail, error = .mailboxWrite detail := by
    intro key herr
    unfold optionalString at herr
    split at herr <;> cases herr
    exact ⟨_, rfl⟩
  rcases bind_eq_error.mp h with h | ⟨_, -, h⟩
  · unfold classificationTags at h
    split at h
    · cases h
    · obtain ⟨value, -, hvalue⟩ := mapM_eq_error h
      split at hvalue <;> cases hvalue
      exact ⟨_, rfl⟩
    · cases h
      exact ⟨_, rfl⟩
  · rcases bind_eq_error.mp h with h | ⟨_, -, h⟩
    · exact hstring _ h
    · rcases bind_eq_error.mp h with h | ⟨_, -, h⟩
      · exact hstring _ h
      · cases h

theorem validateMessageRecord_error (h : validateMessageRecord world record = .error error) :
    ∃ detail, error = .validation detail := by
  unfold validateMessageRecord at h
  split at h
  · cases h
    exact ⟨_, rfl⟩
  · split at h <;> cases h
    exact ⟨_, rfl⟩

theorem messageClassification_plain (h : messageClassification extra = .error error) : error.Plain := by
  obtain ⟨detail, rfl⟩ := messageClassification_error h
  exact ⟨rfl, rfl⟩

theorem validateMessageRecord_plain (h : validateMessageRecord world record = .error error) : error.Plain := by
  obtain ⟨detail, rfl⟩ := validateMessageRecord_error h
  exact ⟨rfl, rfl⟩

variable {recordedAt : IsoTimestamp}

theorem prepareMessageRow_plain (h : prepareMessageRow world record recordedAt = .error error) : error.Plain := by
  rcases bind_eq_error.mp h with h | ⟨_, -, h⟩
  · exact validateMessageRecord_plain h
  · rcases bind_eq_error.mp h with h | ⟨_, -, h⟩
    · exact messageClassification_plain h
    · cases h

theorem insertMessageRow_cause {mail : Table MailRow.key} {row : MailRow}
    (h : insertMessageRow mail row = .error error) : error.cause ≠ some (.constraint .tasksPositionPerMember) := by
  unfold insertMessageRow at h
  split at h
  · contradiction
  · split at h
    · next violated hviol =>
      obtain rfl := Except.error.inj h
      unfold mailConflict at hviol
      split at hviol
      · cases hviol; simp [messageInvariantViolated, AtmError.withCause]
      · split at hviol
        · cases hviol; simp [messageInvariantViolated, AtmError.withCause]
        · contradiction
    · contradiction

theorem insertMessageCanonical_sameLedger : Ensures Fault.sparesQueueIndex (fun result => SameLedger db result.2)
      (insertMessageCanonical world record recordedAt db) := by
  refine ((ensures_lift_plain (fun error => prepareMessageRow_plain)).weaken Fault.spares_of_plain).bind
    (fun row _ => ?_)
  refine (ensures_lift (Q := fun _ => True) (fun error h => insertMessageRow_cause h)
    (fun _ _ => trivial)).bind (fun mail _ => ?_)
  cases mail <;> exact ⟨rfl, rfl⟩

theorem loadExistingMessage_plain (requested : Message) (db : Db) : Ensures Fault.plain
      (fun message => message.mailKey = requested.mailKey ∧
        ∃ stored, db.mailMessages.find? requested.mailKey = some stored)
      (loadExistingMessage requested db) := by
  rw [ensures_iff]
  refine ⟨fun fault h => ?_, fun message h => loadExistingMessage_eq_ok h⟩
  unfold loadExistingMessage at h
  split at h
  · obtain rfl := Except.error.inj h
    exact ⟨rfl, rfl⟩
  · contradiction

variable {ambient : Ambient} {outcome : TaskCloseOutcome}

theorem insertReassignNotice_spec {oldAssignee : AgentName} :
    Ensures Fault.sparesQueueIndex (fun result => SameLedger db result.2)
      (insertReassignNotice world ambient record taskId oldAssignee db) := by
  refine (insertMessageCanonical_sameLedger).bind ?_
  rintro ⟨inserted, db'⟩ hsame
  cases inserted with
  | true => exact hsame
  | false => exact ensures_fail_new

theorem applyTaskAssignment_spec (h : Represents db ledger) {placement : Option MoveTarget}
    (hsubj : record.Asks taskId none)
    (hby : ∀ old, Loads db.tasks (record.team, taskId) (some old) → record.envelope.from = old.assigner) :
    Ensures Fault.sparesQueueIndex (fun result => Advances [.message record] db ledger result.2 result.1.taskEvents)
      (applyTaskAssignment world ambient record taskId placement db) := by
  refine (loadTaskRow_spec).bind (fun row hload => ?_)
  have hby' : ∀ old, row = some old → record.envelope.from = old.assigner := fun old hold =>
    hby old (hold ▸ hload)
  obtain ⟨nextState, hnext⟩ := transition_assigned_isOk
  rw [hnext, Fallible.bind_ok]
  cases record.envelope.messageId with
  | none => exact ensures_fail_new
  | some messageId =>
    dsimp only
    obtain ⟨refreshed, hrun, hrefreshed, hfr⟩ := refreshSameAssignment_spec h hsubj hload hby'
    rw [hrun, Fallible.bind_ok]
    cases refreshed with
    | some result => exact hrefreshed result.1 result.2 rfl
    | none =>
      have hother := hfr rfl
      obtain rfl : nextState = .assigned := Except.ok.inj (hnext.symm.trans (transition_assigned hother))
      refine (persistTaskAssignment_spec h hsubj hload hby' hother).bind ?_
      rintro ⟨ids, rows, db'⟩ hadv
      refine (normalizedPosition_spec).bind (fun position _ => ?_)
      split
      · exact hadv
      · refine (insertReassignNotice_spec).bind ?_
        rintro ⟨notice, db''⟩ hsame
        exact hadv.congr hsame

/-- Whoever is let through to an assignment of an existing task is its assigner. -/
theorem isExistingTaskReport_spec {tasks : TaskTable} : Ensures Fault.sparesQueueIndex
      (fun report => report = false → ∀ old, Loads tasks (record.team, taskId) (some old) →
        record.envelope.from = old.assigner) (isExistingTaskReport record taskId tasks) := by
  refine (loadTaskRow_spec).bind (fun row hload => ?_)
  cases row with
  | none =>
    intro _ old hold
    have hcore := hold.core.symm.trans hload.core
    simp at hcore
  | some row =>
    dsimp only
    split
    · next hfrom =>
      intro _ old hold
      have hcore : old.core = row.core := Option.some.inj (hold.core.symm.trans hload.core)
      have hby : old.assigner = row.assigner := congrArg TaskColumns.assigner hcore
      rw [hfrom, hby]
    · split
      · intro hrep
        cases hrep
      · exact ensures_fail_new

/-- The nested admission of a close is only used on messages that are stored. -/
def KeepsLedger (upsert : Message → Db → Outcome Db) : Prop :=
  ∀ message db, (db.mailMessages.find? message.mailKey).isSome = true →
    Ensures Fault.sparesQueueIndex (fun db' => SameLedger db db') (upsert message db)

theorem acknowledgeAssignment_spec (hup : KeepsLedger upsert) :
    Ensures Fault.sparesQueueIndex (fun db' => SameLedger db db') (acknowledgeAssignment upsert record row db) := by
  unfold acknowledgeAssignment
  split
  · exact .refl db
  · refine ((loadExistingMessage_plain _ db).weaken Fault.spares_of_plain).bind ?_
    rintro assignment ⟨hkey, stored, hst⟩
    split
    · refine hup _ db ?_
      rw [← hkey] at hst
      exact Option.isSome_iff_exists.mpr ⟨stored, hst⟩
    · exact .refl db

variable {reason : Option String}

theorem persistTaskClose_spec (h : Represents db ledger) (hup : KeepsLedger upsert)
    (hsubj : record.Asks taskId (some (.close outcome reason)))
    (hload : Loads db.tasks (record.team, taskId) (some row)) (hopen : row.state.isOpen = true)
    (hparties : (record.envelope.from = row.assignee ∧ record.agent = row.assigner) ∨
      (record.envelope.from = row.assigner ∧ record.agent = row.assignee)) :
    Ensures Fault.sparesQueueIndex (fun result => Advances [.message record] db ledger result.2 [result.1])
      (persistTaskClose upsert ambient record taskId outcome reason row (.complete outcome) db) := by
  refine (acknowledgeAssignment_spec hup).bind (fun db' hsame => ?_)
  have h' := h.congr hsame
  obtain ⟨columns, hfind, hdec⟩ := hload.decodes row rfl
  have hfind' : db'.tasks.find? (record.team, taskId) = some columns := by rw [hsame.tasks, hfind]
  obtain ⟨tasks, hrun, hpict⟩ := closeQueue_spec h'.pictured hfind' hdec
  rw [hrun, Fallible.bind_ok]
  refine (appendTaskEvent_spec _ db'.taskEvents).bind ?_
  rintro ⟨event, events⟩ ⟨hevs, hrep⟩
  refine of_before hsame ?_
  exact of_append h' hpict rfl
    (LedgerStep.closed record taskId row outcome reason hsubj (h.pictured.task_eq hload) hopen hparties)
    hevs hrep

theorem dropTaskLinkFromMail_sameLedger (record : Message) (db : Db) :
    SameLedger db (dropTaskLinkFromMail record db) :=
  ⟨rfl, rfl⟩

def TaskMessageResult.taskEvents : TaskMessageResult → List TaskEventRow
  | .applied _ _ _ _ taskEvents => taskEvents
  | .rejectedReportDelivered _ event => [event]

theorem deliverRejectedCloseReport_spec (h : Represents db ledger)
    (hload : Loads db.tasks (record.team, taskId) (some row)) : Ensures Fault.sparesQueueIndex
      (fun result => Advances [.message record] db ledger result.2 result.1.taskEvents)
      (deliverRejectedCloseReport ambient record taskId row error db) := by
  have hsame := dropTaskLinkFromMail_sameLedger record db
  have h' := h.congr hsame
  refine (appendTaskEvent_spec _ (dropTaskLinkFromMail record db).taskEvents).bind ?_
  rintro ⟨event, events⟩ ⟨hevs, hrep⟩
  refine of_before hsame ?_
  exact of_append h' h'.pictured rfl
    (LedgerStep.refused (.message record) (rejectedReportDraft ambient record taskId row error) (some row)
      (h.pictured.task_eq hload) ⟨rfl, rfl, rfl, rfl⟩) hevs hrep

theorem closeCounterparty_parties
    (hadmits : admitTask (some row) (.completed outcome) taskId record.envelope.from = .ok ())
    (hag : record.agent = closeCounterparty record row) :
    (record.envelope.from = row.assignee ∧ record.agent = row.assigner) ∨
      (record.envelope.from = row.assigner ∧ record.agent = row.assignee) := by
  unfold closeCounterparty at hag
  by_cases hto : record.envelope.from = row.assignee
  · rw [if_pos hto] at hag
    exact .inl ⟨hto, hag⟩
  · rw [if_neg hto] at hag
    refine .inr ⟨?_, hag⟩
    by_contra hby
    simp [admitTask, hto, hby] at hadmits

theorem applyTaskClose_spec (h : Represents db ledger) (hup : KeepsLedger upsert)
    (hsubj : record.Asks taskId (some (.close outcome reason))) : Ensures Fault.sparesQueueIndex
      (fun result => Advances [.message record] db ledger result.2 result.1.taskEvents)
      (applyTaskClose upsert ambient record taskId outcome reason db) := by
  refine (loadTaskRow_spec).bind (fun row hload => ?_)
  cases row with
  | none => exact ensures_fail_new
  | some row =>
    dsimp only
    split
    · exact of_same h (dropTaskLinkFromMail_sameLedger record db)
    · next hstate =>
      have hopen : row.state.isOpen = true := by
        cases hrow : row.state with
        | complete already => exact absurd hrow (hstate already)
        | assigned | active => rfl
      split
      · exact deliverRejectedCloseReport_spec h hload
      · next hadmits =>
        have htra : transition (some row.state) (.completed outcome) taskId record.envelope.from
            (some row.assignee) row.assignee = .ok (.complete outcome) := by
          cases hrow : row.state with
          | complete already => exact absurd hrow (hstate already)
          | assigned | active => rfl
        rw [htra, Fallible.bind_ok]
        split
        · exact deliverRejectedCloseReport_spec h hload
        · next hag =>
          have hparties := closeCounterparty_parties hadmits (not_not.mp hag)
          refine (persistTaskClose_spec h hup hsubj hload hopen hparties).bind ?_
          rintro ⟨event, db'⟩ hadv
          exact hadv

theorem applyTaskMessage_spec (h : Represents db ledger) (hup : KeepsLedger upsert) : Ensures Fault.sparesQueueIndex
      (fun result => Advances [.message record] db ledger result.2 result.1.taskEvents)
      (applyTaskMessage world upsert ambient record db) := by
  unfold applyTaskMessage
  split
  · exact of_same h (.refl db)
  next taskId hsubj =>
  split
  · next hop =>
    refine (isExistingTaskReport_spec).bind (fun report hrep => ?_)
    cases report with
    | true => exact of_same h (.refl db)
    | false =>
      refine (applyTaskAssignment_spec h ⟨hsubj, hop⟩ (hrep rfl)).bind ?_
      rintro ⟨applied, db'⟩ hadv
      exact hadv
  · next hop =>
    refine (applyTaskStart_spec h ⟨hsubj, hop⟩).bind ?_
    rintro ⟨assignee, event, db'⟩ hadv
    exact hadv
  · next hop => exact applyTaskClose_spec h hup ⟨hsubj, hop⟩

end AtmCore
