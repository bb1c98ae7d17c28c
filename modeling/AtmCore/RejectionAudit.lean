import AtmCore.PeerIsolation

/-! Refused operations. A queued operation that fails leaves nothing but, for a refusal of the task ledger, one event
in the log: it is written after the savepoint is dropped and says that the task stays in the state it is in. Every
refusal comes after its task was read, so the audit reads it again without a failure. A template send and a bulk write
have no subject to be audited against: their refusals are not logged. -/

namespace AtmCore

open Fallible Option Fault

/-- A refused reassignment: a message with a task and no operation, from someone who is neither the assigner nor
addresses the assigner. -/
def WriteOp.refusesReassignment (op : WriteOp) (error : AtmError) : Bool :=
  op.admits.any (fun record => record.envelope.taskOp.isNone) && decide (error.code = .taskNotCounterparty)

/-- The refusal is one of the task ledger and is to be logged. -/
def WriteOp.owesAudit (op : WriteOp) (error : AtmError) : Bool :=
  isTaskRejection error.code && !op.refusesReassignment error

/-- The operations that are audited. -/
def WriteOp.audited : WriteOp → Bool
  | .admitTemplateMessage _ | .upsertMessages _ => false
  | _ => true

/-- The reply of an acknowledgement is built by the application layer. -/
def WriteOp.Sealed : WriteOp → Prop
  | .acknowledge _ builder _ => ∃ (kind : AtomicAcknowledgementKind) (fresh : AtmMessageId) (now : IsoTimestamp),
      builder = kind.builder fresh now
  | _ => True

/-- One event is appended: a rejection that leaves its task in the state it is in. -/
def AuditsOnce (db db' : Db) : Prop :=
  ∃ event : TaskEventColumns, db'.taskEvents = db.taskEvents ++ [event] ∧ event.event = .rejected ∧
    event.fromState = event.toState

/-- Tasks, mail and message states are as before, and the log has the one event that is owed. -/
def LeavesRefusal (owed : Bool) (db db' : Db) : Prop :=
  db'.tasks = db.tasks ∧ db'.mailMessages = db.mailMessages ∧ db'.messageStates = db.messageStates ∧
    if owed then AuditsOnce db db' else db'.taskEvents = db.taskEvents

variable {error : AtmError} {op : WriteOp} {taskId : TaskId} {ambient : Ambient} {team : TeamName}
  {provenance : MessageWriteOrigin}

section Reading

variable {db : Db} {record : Message}

theorem loadTaskRow_unaudited {tasks : TaskTable} :
    Ensures Fault.unaudited (fun _ => True) (loadTaskRow tasks team taskId) := by
  unfold loadTaskRow
  cases hsel : selectTaskRow tasks team taskId with
  | ok row => trivial
  | error failure =>
    -- only a column that cannot be read fails here, which is the store's fault
    have hconversion : failure.IsConversion := by
      unfold selectTaskRow at hsel
      cases hfind : tasks.find? (team, taskId) with
      | none =>
        rw [hfind] at hsel
        cases hsel
      | some columns =>
        rw [hfind] at hsel
        cases hrow : decodeRow columns with
        | ok row =>
          simp [mapM_some, hrow, Functor.map, Except.map] at hsel
        | error found =>
          simp only [mapM_some, hrow, Functor.map, Except.map] at hsel
          cases hsel
          exact (decodeRow_spec columns).of_eq_error hrow
    obtain ⟨column, rfl⟩ := hconversion
    exact rfl

theorem applyTaskMessage_of_unreadable {world : World} (upsert : Message → Db → Outcome Db)
    (htask : record.envelope.taskId = some taskId) {fault : Fault}
    (hload : loadTaskRow db.tasks record.team taskId = .error fault) :
    applyTaskMessage world upsert ambient record db = .error fault := by
  unfold applyTaskMessage
  rw [htask]
  dsimp only
  split
  · rw [isExistingTaskReport, hload]
    rfl
  · rw [applyTaskStart, loadStartableTask, hload]
    rfl
  · rw [applyTaskClose, hload]
    rfl

/-- A task is refused to a local message that names it, once it was read. -/
theorem upsertMessage_refused {world : World}
    (hrun : upsertMessage world ambient record provenance db = .error (.err error))
    (hcode : isTaskRejection error.code = true) :
    provenance.isLocal = true ∧ ∃ taskId row, record.envelope.taskId = some taskId ∧
      loadTaskRow db.tasks record.team taskId = .ok row := by
  have hnot : ∀ {α : Type} {Q : α → Prop} {x : Outcome α}, Ensures Fault.unaudited Q x → x ≠ .error (.err error) := by
    intro α Q x hx herr
    have hfalse : isTaskRejection error.code = false := hx.of_eq_error herr
    rw [hcode] at hfalse
    cases hfalse
  rcases bind_eq_error.mp hrun with hfence | ⟨_, -, hrun⟩
  · have hplain := validateCronGenerationFence_plain provenance db.cronSchedules
    exact absurd hfence (hnot (hplain.weaken unaudited_of_plain))
  rcases bind_eq_error.mp hrun with hins | ⟨⟨inserted, written⟩, hins, hrun⟩
  · exact absurd hins (hnot (insertMessageCanonical_unaudited))
  have htasks : written.tasks = db.tasks := ((insertMessageCanonical_sameLedger).of_eq_ok hins).tasks
  cases inserted with
  | false =>
    have hplain := (loadExistingMessage_plain record written).weaken unaudited_of_plain
    exact absurd hrun (hnot (hplain.bind (Q := fun _ => True) (fun _ _ => trivial)))
  | true =>
    dsimp only at hrun
    split at hrun
    swap
    · cases hrun
    next hloc =>
    rcases bind_eq_error.mp hrun with happ | ⟨result, -, hrun⟩
    swap
    · cases hrun
    refine ⟨hloc, ?_⟩
    cases htask : record.envelope.taskId with
    | none =>
      unfold applyTaskMessage at happ
      rw [htask] at happ
      cases happ
    | some taskId =>
      cases hload : loadTaskRow written.tasks record.team taskId with
      | error fault =>
        rw [applyTaskMessage_of_unreadable _ htask hload] at happ
        obtain rfl := Except.error.inj happ
        exact absurd hload (hnot (loadTaskRow_unaudited))
      | ok row => exact ⟨taskId, row, rfl, htasks ▸ hload⟩

theorem executeTaskMove_refused {actor : AgentName} {target : MoveTarget} {instant : IsoTimestamp}
    (hrun : executeTaskMove ambient team taskId actor target instant provenance db = .error (.err error))
    (hcode : isTaskRejection error.code = true) : ∃ row, loadTaskRow db.tasks team taskId = .ok row := by
  rcases bind_eq_error.mp hrun with hfence | ⟨_, -, hrun⟩
  · have hplain : error.Plain := (validateCronGenerationFence_plain provenance db.cronSchedules).of_eq_error hfence
    cases hcode.symm.trans hplain.2
  cases hload : loadTaskRow db.tasks team taskId with
  | ok row => exact ⟨row, rfl⟩
  | error fault =>
    rw [applyTaskMove, hload] at hrun
    have hfalse := (loadTaskRow_unaudited).of_eq_error hload
    cases hrun
    have hcode' : isTaskRejection error.code = false := hfalse
    rw [hcode] at hcode'
    cases hcode'

end Reading

section Others

variable (world : World) (ambient : Ambient) (db : Db)

theorem executeAcknowledgement_unaudited (source : AcknowledgementSource) (kind : AtomicAcknowledgementKind)
    (fresh : AtmMessageId) (now : IsoTimestamp) (provenance : MessageWriteOrigin) :
    Ensures Fault.unaudited (fun _ => True)
      (executeAcknowledgement world ambient source (kind.builder fresh now) provenance db) := by
  refine ((validateCronGenerationFence_plain provenance db.cronSchedules).weaken unaudited_of_plain).bind
    (fun _ _ => ?_)
  refine ((loadPendingAckSource_plain).weaken unaudited_of_plain).bind ?_
  rintro message ⟨row, hfind, -⟩
  refine (builder_unaudited).bind (fun reply hrepl => ?_)
  have hgrows := upsertMessage_grows world (ambient.from 1) reply .local db
  have hreply : Ensures Fault.unaudited (fun _ => True) (upsertMessage world (ambient.from 1) reply .local db) :=
    upsertMessage_quiet (Q := fun _ => True) world (ambient.from 1) (.inl hrepl.untasked) (returns_any _)
  refine hreply.and_eq.bind ?_
  rintro ⟨result, written⟩ ⟨-, hrun⟩
  obtain ⟨stored, hst⟩ := isSome_iff_exists.mp
    ((hgrows.of_eq_ok hrun).stored message.mailKey (isSome_iff_exists.mpr ⟨row, hfind⟩))
  have hst' : written.mailMessages.find? (markSourceAcknowledged message (ambient.clock 0)).mailKey =
      some stored := hst
  obtain ⟨existing, -, hpresent⟩ := upsertMessage_of_present world (ambient.from (1 + admissionReadings)) .local hst'
  dsimp only
  rw [hpresent]
  refine Ensures.bind (P := fun _ => True) ?_ (fun _ _ => trivial)
  exact ((admissionChecks_plain).weaken unaudited_of_plain).bind (fun _ _ => trivial)

/-- An audited operation that is refused a task has a subject, and the task it names can be read. -/
theorem execute_refused {world : World} {ambient : Ambient} {db : Db} (hsealed : op.Sealed)
    (haudit : op.audited = true) (hrun : execute world ambient op db = .error (.err error))
    (hcode : isTaskRejection error.code = true) : ∃ subject row, rejectedEventSubject op db = .ok (some subject) ∧
      loadTaskRow db.tasks subject.team subject.taskId = .ok row := by
  have hnot : ∀ {α β : Type} {Q : α → Prop} {x : Outcome α} {f : α → β}, Ensures Fault.unaudited Q x →
      x >>= (fun a => .ok (f a)) ≠ .error (.err error) := by
    intro α β Q x f hx herr
    have hok : Ensures Fault.unaudited (fun _ => True) (x >>= fun a => .ok (f a)) := hx.bind (fun _ _ => trivial)
    have hfalse : isTaskRejection error.code = false := hok.of_eq_error herr
    cases hcode.symm.trans hfalse
  have hplain : ∀ {α β : Type} {Q : α → Prop} {x : Outcome α} {f : α → β}, Ensures Fault.plain Q x →
      x >>= (fun a => .ok (f a)) ≠ .error (.err error) := fun hx => hnot (hx.weaken unaudited_of_plain)
  cases op with
  | applyReadDisplayState mailbox messageIds seenWatermark provenance =>
    refine absurd hrun (hplain (Q := fun _ => True) ?_)
    refine (validateCronGenerationFence_plain provenance db.cronSchedules).bind (fun _ _ => ?_)
    exact (markMessagesRead_plain mailbox _ _ messageIds db.messageStates).bind (fun _ _ => trivial)
  | deleteMessage key provenance =>
    refine absurd hrun (hplain (Q := fun _ => True) ?_)
    exact (validateCronGenerationFence_plain provenance db.cronSchedules).bind (fun _ _ => trivial)
  | upsertMessage record provenance =>
    rcases bind_eq_error.mp hrun with hrun | ⟨_, -, hrun⟩
    · obtain ⟨hloc, taskId, row, htask, hload⟩ := upsertMessage_refused hrun hcode
      refine ⟨⟨record.team, taskId, record.agent, record.envelope.from, record.envelope.messageId⟩, row, ?_, hload⟩
      simp only [rejectedEventSubject, hloc, htask, if_true, map_some]
    · cases hrun
  | acknowledge source builder provenance =>
    obtain ⟨kind, fresh, now, rfl⟩ := hsealed
    exact absurd hrun (hnot (executeAcknowledgement_unaudited world ambient db source kind fresh now provenance))
  | taskMove team taskId actor target instant provenance =>
    rcases bind_eq_error.mp hrun with hrun | ⟨_, -, hrun⟩
    · obtain ⟨row, hload⟩ := executeTaskMove_refused hrun hcode
      exact ⟨⟨team, taskId, actor, actor, none⟩, row, rfl, hload⟩
    · cases hrun
  | registerTemplate request =>
    refine absurd hrun (hplain (Q := fun _ => True) ?_)
    refine (ensures_lift_plain (fun error h => ?_)).bind (fun _ _ => trivial)
    exact ⟨world.validateTemplate_cause request error h, world.validateTemplate_code request error h⟩
  | admitDecomposedMessage admission =>
    exact absurd hrun (hplain (executeDecomposedMessageAdmission_decomposes))
  | recordDiagnostics | pruneDiagnostics => cases hrun
  | upsertMessages | admitTemplateMessage => cases haudit

end Others

variable {row : Option TaskRow} {subject : RejectedSubject}

section Audit

variable {world : World} {queued : QueuedWrite} {db : Db} {error : AtmError}

theorem taskEventState_of_row :
    taskEventState (row.map (fun row => row.state.tag)) (row.bind (fun row => row.state.closeOutcome)) =
      .ok (row.map TaskRow.state) := by
  cases row with
  | none => rfl
  | some row =>
    have hparts : (if row.state.tag = .complete then row.state.closeOutcome else none) = row.state.closeOutcome := by
      cases row.state <;> rfl
    simp only [taskEventState, map_some, bind_some, mapM_some, hparts,
      TaskState.fromParts_tag_closeOutcome]
    rfl

/-- With a subject that can be read the audit writes its event. -/
theorem appendRejectedTaskEvent_of_subject
    (hcode : isTaskRejection error.code = true) (hrefusal : isPreAdmissionReassignmentRefusal op error = false)
    (hsubj : rejectedEventSubject op db = .ok (some subject))
    (hload : loadTaskRow db.tasks subject.team subject.taskId = .ok row) :
    ∃ event, appendRejectedTaskEvent ambient op error db = .ok (some event, { db with
      taskEvents := db.taskEvents ++ [(rejectedDraft ambient subject row error).columns
        (nextEventSeq db.taskEvents subject.team subject.taskId)] }) := by
  have hstate : Outcome.lift (taskEventState (rejectedDraft ambient subject row error).fromState
      (rejectedDraft ambient subject row error).closeOutcome) = .ok (row.map TaskRow.state) :=
    congrArg Outcome.lift (taskEventState_of_row)
  have hstate' : Outcome.lift (taskEventState (rejectedDraft ambient subject row error).toState
      (rejectedDraft ambient subject row error).closeOutcome) = .ok (row.map TaskRow.state) :=
    congrArg Outcome.lift (taskEventState_of_row)
  unfold appendRejectedTaskEvent
  rw [if_neg (by simp [hcode, hrefusal]), hsubj]
  simp only [Fallible.bind_ok, hload, appendTaskEvent, hstate, hstate']
  exact ⟨_, rfl⟩

theorem isPreAdmissionReassignmentRefusal_eq (hsubj : rejectedEventSubject op db = .ok (some subject)) :
    isPreAdmissionReassignmentRefusal op error = op.refusesReassignment error := by
  cases op with
  | upsertMessage record provenance =>
    have hloc : provenance.isLocal = true := by
      cases hloc : provenance.isLocal with
      | true => rfl
      | false => simp [rejectedEventSubject, hloc] at hsubj
    simp [isPreAdmissionReassignmentRefusal, WriteOp.refusesReassignment, WriteOp.admits, hloc]
  | admitTemplateMessage admission => cases hsubj
  | _ => rfl

theorem appendRejectedTaskEvent_of_no_subject (hsubj : rejectedEventSubject op db = .ok none) :
    appendRejectedTaskEvent ambient op error db = .ok (none, db) := by
  unfold appendRejectedTaskEvent
  rw [hsubj]
  split <;> rfl

theorem rejectedEventSubject_of_not_audited (h : op.audited = false) : rejectedEventSubject op db = .ok none := by
  cases op with
  | upsertMessages | admitTemplateMessage => rfl
  | _ => cases h

/-- What a refused operation leaves: the event of its audit, if there is one to make. -/
theorem processQueuedWrite_refused (hsealed : queued.op.Sealed)
    (hrun : execute world queued.ambient queued.op db = .error (.err error)) :
    (queued.op.audited = true ∧ queued.op.owesAudit error = true ∧ ∃ (row : TaskEventRow) (event : TaskEventColumns),
        processQueuedWrite world queued db =
          (.ok ⟨.error error, [row]⟩, { db with taskEvents := db.taskEvents ++ [event] }) ∧
        event.event = .rejected ∧ event.fromState = event.toState) ∨
      (¬ (queued.op.audited = true ∧ queued.op.owesAudit error = true) ∧
        processQueuedWrite world queued db = (.ok ⟨.error error, []⟩, db)) := by
  have hprocess : ∀ {event : Option TaskEventRow} {audited : Db},
      appendRejectedTaskEvent queued.ambient queued.op error db = .ok (event, audited) →
      processQueuedWrite world queued db = (.ok ⟨.error error, event.toList⟩, audited) := by
    intro event audited haudit
    unfold processQueuedWrite
    rw [hrun]
    dsimp only
    rw [haudit]
  by_cases hcode : isTaskRejection error.code = true
  swap
  · refine .inr ⟨fun h => hcode (Bool.and_eq_true_iff.mp h.2).1, @hprocess none db ?_⟩
    unfold appendRejectedTaskEvent
    rw [if_pos (by simp [hcode])]
  by_cases haudited : queued.op.audited = true
  swap
  · refine .inr ⟨fun h => haudited h.1, @hprocess none db ?_⟩
    exact appendRejectedTaskEvent_of_no_subject (rejectedEventSubject_of_not_audited (Bool.eq_false_iff.mpr haudited))
  obtain ⟨subject, row, hsubj, hload⟩ := execute_refused hsealed haudited hrun hcode
  have hrefusal : isPreAdmissionReassignmentRefusal queued.op error = queued.op.refusesReassignment error :=
    isPreAdmissionReassignmentRefusal_eq hsubj
  by_cases hreassign : queued.op.refusesReassignment error = true
  · refine .inr ⟨?_, @hprocess none db ?_⟩
    · simp [WriteOp.owesAudit, hreassign]
    · unfold appendRejectedTaskEvent
      rw [hrefusal, if_pos (by simp [hreassign])]
  · rw [Bool.not_eq_true] at hreassign
    obtain ⟨event, haudit⟩ := appendRejectedTaskEvent_of_subject hcode (hrefusal.trans hreassign) hsubj hload
    exact .inl ⟨haudited, by simp [WriteOp.owesAudit, hcode, hreassign], event, _, hprocess haudit, rfl, rfl⟩

end Audit

end AtmCore
