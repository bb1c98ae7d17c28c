import AtmCore.TaskMail

/-! What the operations of the writer do to the store, said once for each of them, and what they leave alone. No
operation touches the roster or the tables of the cron store, whether it succeeds or fails, and a write that fails
without an audit leaves everything as it was. -/

namespace AtmCore

open Rows Fallible Option

/-- The rewriting of the decomposed columns of one key. -/
def decomposeRow (message : DecomposedMessageRecord) (row : MailRow) : MailRow :=
  if undecomposed message.key row then message.apply row else row

theorem decomposeRow_key (message : DecomposedMessageRecord) (row : MailRow) :
    (decomposeRow message row).key = row.key := by
  unfold decomposeRow
  split <;> rfl

/-- A binding to a template registers the template, and decomposes the message if it is not decomposed yet. -/
def Decomposes (message : DecomposedMessageRecord) (db db' : Db) : Prop :=
  ∃ templates documents, db' = { db with templates := templates, templateDocuments := documents } ∨
    ∃ search, db' = { db with
      templates := templates
      templateDocuments := documents
      mailMessages := db.mailMessages.mapRows (decomposeRow message) (decomposeRow_key message)
      searchDocuments := search }

/-- What an operation does to the store when it succeeds. -/
def WriteOp.Does (world : World) (ambient : Ambient) (db db' : Db) : WriteOp → Prop
  | applyReadDisplayState mailbox messageIds _ _ => ∃ states watermarks,
      markMessagesRead mailbox (ambient.clock 0) ((ambient.clock 0).addMillis taskReminderIntervalMs) messageIds
        db.messageStates = .ok states ∧ db' = { db with messageStates := states, seenWatermarks := watermarks }
  | deleteMessage key _ => db' = { db with
      searchDocuments := db.searchDocuments.filterRows (fun row => decide (row.messageKey ≠ key))
      messageStates := db.messageStates.filterRows (fun row => decide (row.messageKey ≠ key))
      mailMessages := db.mailMessages.filterRows (fun row => decide (row.messageKey ≠ key)) }
  | upsertMessage record provenance => ∃ result,
      AtmCore.upsertMessage world ambient record provenance db = .ok (result, db')
  | upsertMessages records => executeUpsertMessages world ambient records db = .ok db'
  | acknowledge source builder _ => ∃ loaded reply first written second,
      loadPendingAckSource source db = .ok loaded ∧ builder.buildReply loaded = .ok reply ∧
      AtmCore.upsertMessage world (ambient.from 1) reply .local db = .ok (first, written) ∧
      AtmCore.upsertMessage world (ambient.from (1 + admissionReadings))
        (markSourceAcknowledged loaded (ambient.clock 0)) .local written = .ok (second, db')
  | taskMove team taskId actor target instant _ => ∃ record,
      applyTaskMove ambient team taskId actor target instant db = .ok (record, db')
  | registerTemplate _ => ∃ templates documents,
      db' = { db with templates := templates, templateDocuments := documents }
  | admitDecomposedMessage admission => Decomposes admission.message db db'
  | admitTemplateMessage admission => ∃ result written,
      AtmCore.upsertMessage world ambient admission.record admission.provenance db = .ok (result, written) ∧
        (db' = written ∨ Decomposes admission.decomposition.message written db')
  | recordDiagnostics _ | pruneDiagnostics _ => ∃ events, db' = { db with diagnosticEvents := events }

variable {message : DecomposedMessageRecord} {admission : DecomposedMessageAdmission} {op : WriteOp}
  {queued : QueuedWrite}

section Inversions

variable {world : World} {ambient : Ambient} {db : Db}

theorem insertTemplateIfAbsent_eq (request : TemplateRegistration) (db : Db) :
    ∃ templates documents, (insertTemplateIfAbsent request db).2 =
      { db with templates := templates, templateDocuments := documents } := by
  unfold insertTemplateIfAbsent
  cases db.templates.insertNew request with
  | none => exact ⟨db.templates, _, rfl⟩
  | some templates => exact ⟨templates, _, rfl⟩

theorem persistDecomposedMessageColumns_eq_ok {db written : Db}
    (h : persistDecomposedMessageColumns message db = .ok written) : ∃ documents, written = { db with
      mailMessages := db.mailMessages.mapRows (decomposeRow message) (decomposeRow_key message)
      searchDocuments := documents } := by
  unfold persistDecomposedMessageColumns at h
  split at h
  · cases h
  · dsimp only at h
    split at h
    · cases h
      exact ⟨db.searchDocuments, rfl⟩
    · cases h
      exact ⟨_, rfl⟩

theorem DecomposedMessageAdmission.validate_plain {error : AtmError}
    (h : admission.validate world = .error error) : error.Plain := by
  rcases bind_eq_error.mp h with h | ⟨_, -, h⟩
  · exact ⟨world.validateTemplate_cause _ _ h, world.validateTemplate_code _ _ h⟩
  · split at h
    · cases h
      exact ⟨rfl, rfl⟩
    · split at h
      · cases h
        exact ⟨rfl, rfl⟩
      · exact ⟨world.validateWorkflow_cause _ _ h, world.validateWorkflow_code _ _ h⟩

theorem executeDecomposedMessageAdmission_decomposes :
    Ensures Fault.plain (fun result => Decomposes admission.message db result.2)
      (executeDecomposedMessageAdmission world admission db) := by
  obtain ⟨templates, documents, htemplate⟩ := insertTemplateIfAbsent_eq admission.template db
  refine (ensures_lift_plain (fun error => DecomposedMessageAdmission.validate_plain)).bind (fun _ _ => ?_)
  dsimp only
  rw [htemplate]
  split
  · exact ⟨rfl, rfl⟩
  split
  · split
    · exact ⟨templates, documents, .inl rfl⟩
    · exact ⟨rfl, rfl⟩
  · unfold persistDecomposedMessageColumns
    split
    · exact ⟨rfl, rfl⟩
    · dsimp only
      split
      · exact ⟨templates, documents, .inr ⟨_, rfl⟩⟩
      · exact ⟨templates, documents, .inr ⟨_, rfl⟩⟩

theorem executeAdmitTemplateMessage_does {admission : TemplateMessageAdmission} :
    Returns (fun result => (WriteOp.admitTemplateMessage admission).Does world ambient db result.2)
      (executeAdmitTemplateMessage world ambient admission db) := by
  refine .skip (fun _ => (returns_any _).and_eq.bind ?_)
  rintro ⟨result, written⟩ ⟨-, hwr⟩
  dsimp only
  split
  · refine (executeDecomposedMessageAdmission_decomposes).returns.bind ?_
    exact fun _ h => ⟨result, written, hwr, .inr h⟩
  · exact ⟨result, written, hwr, .inl rfl⟩

theorem applyTaskMove_eq {team : TeamName} {taskId : TaskId} {actor : AgentName} {target : MoveTarget}
    {instant : IsoTimestamp} :
    Returns (fun result => WritesLedger db result.2) (applyTaskMove ambient team taskId actor target instant db) := by
  refine .skip (fun row => ?_)
  split
  · trivial
  split
  · trivial
  refine .skip (fun nextState => ?_)
  split
  · exact .skip (fun _ => .skip (fun event => ⟨db.tasks, event.2, rfl⟩))
  · unfold applyQueuedTaskMove
    split
    · trivial
    · refine .skip (fun _ => .skip (fun tasks => ?_))
      exact .skip (fun _ => .skip (fun event => ⟨tasks, event.2, rfl⟩))

theorem appendRejectedTaskEvent_eq (ambient : Ambient) (op : WriteOp) (error : AtmError) :
    Returns (fun result => ∃ events, result.2 = { db with taskEvents := events })
      (appendRejectedTaskEvent ambient op error db) := by
  unfold appendRejectedTaskEvent
  split
  · exact ⟨db.taskEvents, rfl⟩
  refine .skip (fun subject => ?_)
  cases subject with
  | none => exact ⟨db.taskEvents, rfl⟩
  | some subject => exact .skip (fun _ => .skip (fun event => ⟨event.2, rfl⟩))

theorem execute_does : Returns (fun result => op.Does world ambient db result.2) (execute world ambient op db) := by
  cases op with
  | applyReadDisplayState mailbox messageIds seenWatermark provenance =>
    refine (returns_any _).and_eq.bind (fun written h => ?_)
    obtain ⟨_, -, h⟩ := bind_eq_ok.mp h.2
    obtain ⟨states, hstates, h⟩ := bind_eq_ok.mp h
    exact ⟨states, _, hstates, (Except.ok.inj h).symm⟩
  | deleteMessage key provenance =>
    refine (returns_any _).and_eq.bind (fun written h => ?_)
    obtain ⟨_, -, h⟩ := bind_eq_ok.mp h.2
    exact (Except.ok.inj h).symm
  | upsertMessage record provenance => exact (returns_any _).and_eq.bind (fun result h => ⟨result.1, h.2⟩)
  | upsertMessages records => exact (returns_any _).and_eq.bind (fun _ h => h.2)
  | acknowledge source builder provenance =>
    refine (returns_any _).and_eq.bind (fun written h => ?_)
    obtain ⟨_, -, h⟩ := bind_eq_ok.mp h.2
    obtain ⟨loaded, hload, h⟩ := bind_eq_ok.mp h
    obtain ⟨reply, hreply, h⟩ := bind_eq_ok.mp h
    obtain ⟨first, hfirst, h⟩ := bind_eq_ok.mp h
    obtain ⟨second, hsecond, h⟩ := bind_eq_ok.mp h
    cases h
    exact ⟨loaded, reply, _, _, _, hload, hreply, hfirst, hsecond⟩
  | taskMove team taskId actor target instant provenance =>
    refine (returns_any _).and_eq.bind (fun moved h => ?_)
    obtain ⟨_, -, h⟩ := bind_eq_ok.mp h.2
    exact ⟨moved.1, h⟩
  | registerTemplate request =>
    refine (returns_any _).and_eq.bind (fun registered h => ?_)
    obtain ⟨_, -, h⟩ := bind_eq_ok.mp h.2
    cases h
    exact insertTemplateIfAbsent_eq request db
  | admitDecomposedMessage admission =>
    exact (executeDecomposedMessageAdmission_decomposes).returns.bind (fun _ h => h)
  | admitTemplateMessage admission =>
    exact (executeAdmitTemplateMessage_does).bind (fun _ h => h)
  | recordDiagnostics | pruneDiagnostics => exact ⟨_, rfl⟩

/-- What a queued write leaves: what its operation does, or the audit of its refusal. -/
theorem processQueuedWrite_does : queued.op.Does world queued.ambient db (processQueuedWrite world queued db).2 ∨
      ∃ events, (processQueuedWrite world queued db).2 = { db with taskEvents := events } := by
  unfold processQueuedWrite
  cases hrun : execute world queued.ambient queued.op db with
  | ok result => exact .inl ((execute_does).of_eq_ok hrun)
  | error fault =>
    refine .inr ?_
    cases fault with
    | panic => exact ⟨db.taskEvents, rfl⟩
    | err error =>
      dsimp only
      cases haudit : appendRejectedTaskEvent queued.ambient queued.op error db with
      | ok result => exact (appendRejectedTaskEvent_eq queued.ambient queued.op error).of_eq_ok haudit
      | error fault => cases fault <;> exact ⟨db.taskEvents, rfl⟩

end Inversions

variable {source : AcknowledgementSource}

section Plain

theorem validateCronGenerationFence_plain (provenance : MessageWriteOrigin) (schedules : Table CronScheduleRow.id) :
    Ensures Fault.plain (fun _ => True) (validateCronGenerationFence provenance schedules) := by
  unfold validateCronGenerationFence
  split
  · split
    · exact ⟨rfl, rfl⟩
    · split
      · trivial
      · exact ⟨rfl, rfl⟩
  · trivial

theorem acknowledgementSourceRow_eq_some {db : Db} {row : MailRow}
    {state : MessageStateRow} (h : acknowledgementSourceRow source db = some (row, state)) :
    row ∈ db.mailMessages.rows ∧ row.team = source.team ∧ row.agent = source.agent ∧
      row.messageId = some source.messageId ∧ db.messageStates.find? row.key = some state := by
  obtain ⟨found, hf, h⟩ := bind_eq_some_iff.mp h
  obtain ⟨stored, hst, h⟩ := bind_eq_some_iff.mp h
  cases h
  have hmatches := List.find?_some hf
  simp only [Bool.and_eq_true, decide_eq_true_eq] at hmatches
  exact ⟨List.mem_of_find?_eq_some hf, hmatches.1.1, hmatches.1.2, hmatches.2,
    (filter_eq_some_iff.mp hst).1⟩

/-- The source of an acknowledgement is a stored message. -/
theorem loadPendingAckSource_plain {db : Db} :
    Ensures Fault.plain (fun message => ∃ row, db.mailMessages.find? message.mailKey = some row ∧
      row.messageId = some source.messageId) (loadPendingAckSource source db) := by
  unfold loadPendingAckSource
  split
  · exact ⟨rfl, rfl⟩
  next row state hrow =>
  obtain ⟨hmem, hteam, hag, hid, -⟩ := acknowledgementSourceRow_eq_some hrow
  split
  · exact ⟨rfl, rfl⟩
  split
  · exact ⟨rfl, rfl⟩
  · refine ⟨row, ?_, hid⟩
    rw [Message.mailKey, ← hteam, ← hag]
    exact Table.find?_key hmem

theorem markMessagesRead_plain (mailbox : MailboxScope) (updatedAt nextDue : IsoTimestamp) (keys : List MessageKey)
    (states : Table MessageStateRow.key) :
    Ensures Fault.plain (fun _ => True) (markMessagesRead mailbox updatedAt nextDue keys states) := by
  fun_induction markMessagesRead mailbox updatedAt nextDue keys states with
  | case1 => trivial
  | case2 states key keys hst ih => exact ih
  | case3 => exact ⟨rfl, rfl⟩

end Plain

section Beside

variable {world : World} {ambient : Ambient} {db db' : Db}

theorem Decomposes.beside (h : Decomposes message db db') : SameBeside db db' := by
  obtain ⟨templates, documents, rfl | ⟨search, rfl⟩⟩ := h <;> exact ⟨⟨rfl, rfl, rfl⟩, rfl⟩

theorem beside_of_upsertMessage {record : Message} {provenance : MessageWriteOrigin} {result : UpsertResult}
    (h : upsertMessage world ambient record provenance db = .ok (result, db')) : SameBeside db db' :=
  ((upsertMessage_grows world ambient record provenance db).of_eq_ok h).toSameBeside

theorem beside_of_upsertMessages {records : List Message} {ambient : Ambient} {db : Db}
    (h : executeUpsertMessages world ambient records db = .ok db') : SameBeside db db' := by
  induction records generalizing ambient db with
  | nil => exact Except.ok.inj h ▸ .refl db
  | cons record records ih =>
    obtain ⟨⟨result, written⟩, hfirst, hrest⟩ := bind_eq_ok.mp h
    exact (beside_of_upsertMessage hfirst).trans (ih hrest)

/-- No operation of the writer touches the roster or the cron store. -/
theorem WriteOp.Does.beside (h : op.Does world ambient db db') : SameBeside db db' := by
  cases op with
  | applyReadDisplayState mailbox messageIds seenWatermark provenance =>
    obtain ⟨states, watermarks, -, rfl⟩ := h
    exact ⟨⟨rfl, rfl, rfl⟩, rfl⟩
  | deleteMessage key provenance => exact h ▸ ⟨⟨rfl, rfl, rfl⟩, rfl⟩
  | upsertMessage record provenance => exact beside_of_upsertMessage h.choose_spec
  | upsertMessages records => exact beside_of_upsertMessages h
  | acknowledge source builder provenance =>
    obtain ⟨_, _, _, written, _, -, -, hfirst, hsecond⟩ := h
    exact (beside_of_upsertMessage hfirst).trans (beside_of_upsertMessage hsecond)
  | taskMove team taskId actor target instant provenance =>
    obtain ⟨record, h⟩ := h
    obtain ⟨tasks, events, rfl⟩ := (applyTaskMove_eq).of_eq_ok h
    exact ⟨⟨rfl, rfl, rfl⟩, rfl⟩
  | registerTemplate request =>
    obtain ⟨templates, documents, rfl⟩ := h
    exact ⟨⟨rfl, rfl, rfl⟩, rfl⟩
  | admitDecomposedMessage admission => exact Decomposes.beside h
  | admitTemplateMessage admission =>
    obtain ⟨_, written, hfirst, rfl | hrest⟩ := h
    · exact beside_of_upsertMessage hfirst
    · exact (beside_of_upsertMessage hfirst).trans hrest.beside
  | recordDiagnostics | pruneDiagnostics => exact h.choose_spec ▸ ⟨⟨rfl, rfl, rfl⟩, rfl⟩

theorem processQueuedWrite_beside (world : World) (queued : QueuedWrite) (db : Db) :
    SameBeside db (processQueuedWrite world queued db).2 := by
  rcases processQueuedWrite_does with hdoes | ⟨events, heq⟩
  · exact hdoes.beside
  · exact heq ▸ ⟨⟨rfl, rfl, rfl⟩, rfl⟩

end Beside

/-- The fault is not one that is audited. -/
def Fault.unaudited : Fault → Prop
  | .panic => True
  | .err error => isTaskRejection error.code = false

theorem Fault.unaudited_of_plain (fault : Fault) (h : fault.plain) : fault.unaudited := by
  cases fault with
  | panic => trivial
  | err error => exact h.2

/-- A write that fails without an audit leaves everything as it was. -/
theorem processQueuedWrite_of_unaudited {world : World} {db : Db} {fault : Fault}
    (hrun : execute world queued.ambient queued.op db = .error fault) (h : fault.unaudited) :
    (processQueuedWrite world queued db).2 = db := by
  unfold processQueuedWrite
  rw [hrun]
  cases fault with
  | panic => rfl
  | err error =>
    have hcode : isTaskRejection error.code = false := h
    simp [appendRejectedTaskEvent, hcode]

end AtmCore
