import AtmCore.StoreRuns

/-! Delivering a message again. The row of a key that is stored is not inserted twice and the task ledger is
not reached, but the state row of the key is written from the request all the same. So a retry changes
nothing exactly when it is turned away by a check, or says of the message what its state row says already. -/

namespace AtmCore

open Rows Fallible Option

/-- The checks of an admission, which come before anything is written. -/
def admissionChecks (world : World) (record : Message) (provenance : MessageWriteOrigin) (db : Db) :
    Outcome Unit := do
  validateCronGenerationFence provenance db.cronSchedules
  Outcome.lift (validateMessageRecord world record)
  let _ ← Outcome.lift (messageClassification record.envelope.extra)
  return ()

/-- A template is validated before the admission of its message. -/
def WriteOp.checks (world : World) (op : WriteOp) (db : Db) : Outcome Unit :=
  match op with
  | .upsertMessage record provenance => admissionChecks world record provenance db
  | .admitTemplateMessage admission => do
    Outcome.lift (admission.validate world)
    admissionChecks world admission.record admission.provenance db
  | _ => .ok ()

/-- What a state row says of its message. -/
structure MessageState where
  read : Bool
  pendingAckAt : Option IsoTimestamp
  acknowledgedAt : Option IsoTimestamp
  expiresAt : Option IsoTimestamp
  deletedAt : Option IsoTimestamp
  nudgePendingAt : Option IsoTimestamp
  deriving DecidableEq

def MessageStateRow.state (row : MessageStateRow) : MessageState where
  read := row.read
  pendingAckAt := row.pendingAckAt
  acknowledgedAt := row.acknowledgedAt
  expiresAt := row.expiresAt
  deletedAt := row.deletedAt
  nudgePendingAt := row.nudgePendingAt

/-- Mail, ledger and the state of the key are as before. -/
def Untouched (key : MailKey) (db db' : Db) : Prop :=
  db'.mailMessages = db.mailMessages ∧ SameLedger db db' ∧
    (db'.messageStates.find? key).map MessageStateRow.state =
      (db.messageStates.find? key).map MessageStateRow.state

/-- The message says what its state row says: the same flags, not deleted, and no marker it would clear. -/
def Message.repeats (record : Message) (state : MessageStateRow) : Bool :=
  decide (state.read = record.envelope.read) && decide (state.pendingAckAt = record.envelope.pendingAckAt) &&
    decide (state.acknowledgedAt = record.envelope.acknowledgedAt) &&
    decide (state.expiresAt = record.envelope.expiresAt) && decide (state.deletedAt = none) &&
    (decide (state.nudgePendingAt = none) ||
      !settled record.envelope.read record.envelope.pendingAckAt record.envelope.acknowledgedAt)

variable {world : World}

theorem admissionChecks_plain {record : Message} {provenance : MessageWriteOrigin} {db : Db} :
    Ensures Fault.plain (fun _ => True) (admissionChecks world record provenance db) := by
  refine (validateCronGenerationFence_plain provenance db.cronSchedules).bind (fun _ _ => ?_)
  refine (ensures_lift_plain (fun error => validateMessageRecord_plain)).bind (fun _ _ => ?_)
  exact (ensures_lift_plain (fun error => messageClassification_plain)).bind (fun _ _ => trivial)

variable {ambient : Ambient} {op : WriteOp}

section Present

variable {db : Db} {record : Message} {stored : MailRow}

/-- The admission of a stored key checks the request and writes the state row. -/
theorem upsertMessage_of_present (world : World) (ambient : Ambient) (provenance : MessageWriteOrigin)
    (hst : db.mailMessages.find? record.mailKey = some stored) : ∃ existing, loadExistingMessage record
        { db with messageStates := upsertMessageState db.messageStates record (ambient.clock 0) } = .ok existing ∧
      upsertMessage world ambient record provenance db = (admissionChecks world record provenance db >>= fun _ =>
          .ok (UpsertResult.plain false (some existing),
            { db with messageStates := upsertMessageState db.messageStates record (ambient.clock 0) })) := by
  obtain ⟨existing, hex⟩ : ∃ existing, loadExistingMessage record
      { db with messageStates := upsertMessageState db.messageStates record (ambient.clock 0) } =
        .ok existing := by
    unfold loadExistingMessage
    rw [hst]
    exact ⟨_, rfl⟩
  refine ⟨existing, hex, ?_⟩
  rw [upsertMessage, executeUpsertMessage, admitMessage_of_present world _ ambient provenance hst]
  unfold admissionChecks prepareMessageRow
  cases validateCronGenerationFence provenance db.cronSchedules with
  | error fault => rfl
  | ok _ =>
    cases validateMessageRecord world record with
    | error error => rfl
    | ok _ =>
      cases messageClassification record.envelope.extra with
      | error error => rfl
      | ok classification =>
        show (loadExistingMessage record _ >>= _) = _
        rw [hex]
        rfl

theorem execute_of_present
    (hadmits : op.admits = some record) (hst : db.mailMessages.find? record.mailKey = some stored) :
    ∃ result, execute world ambient op db = (op.checks world db >>= fun _ =>
      .ok (result,
        { db with messageStates := upsertMessageState db.messageStates record (ambient.clock 0) })) := by
  cases op with
  | upsertMessage message provenance =>
    obtain rfl := some.inj hadmits
    obtain ⟨existing, -, hrun⟩ := upsertMessage_of_present world ambient provenance hst
    refine ⟨.upsertMessage (UpsertResult.plain false (some existing)), ?_⟩
    simp only [execute, WriteOp.checks, hrun]
    cases admissionChecks world message provenance db <;> rfl
  | admitTemplateMessage admission =>
    cases hadmits
    obtain ⟨existing, -, hrun⟩ := upsertMessage_of_present world ambient admission.provenance hst
    refine ⟨.templateMessageAdmission (UpsertResult.plain false (some existing)), ?_⟩
    simp only [execute, executeAdmitTemplateMessage, WriteOp.checks, hrun]
    cases admission.validate world with
    | error error => rfl
    | ok _ => cases admissionChecks world admission.record admission.provenance db <;> rfl
  | _ => cases hadmits

theorem audit_of_checks_error
    (hadmits : op.admits = some record) {error : AtmError} (hchecks : op.checks world db = .error (.err error)) :
    appendRejectedTaskEvent ambient op error db = .ok (none, db) := by
  cases op with
  | upsertMessage message provenance =>
    have hcode : isTaskRejection error.code = false := ((admissionChecks_plain).of_eq_error hchecks).2
    simp [appendRejectedTaskEvent, hcode]
  | admitTemplateMessage admission =>
    unfold appendRejectedTaskEvent
    split <;> rfl
  | _ => cases hadmits

theorem upsertMessageState_state {states : Table MessageStateRow.key} {updatedAt : IsoTimestamp} :
    ((upsertMessageState states record updatedAt).find? record.mailKey).map MessageStateRow.state =
        (states.find? record.mailKey).map MessageStateRow.state ↔
      (states.find? record.mailKey).any record.repeats = true := by
  rw [find?_upsertMessageState, if_pos rfl]
  cases states.find? record.mailKey with
  | none => simp
  | some state =>
    simp only [elim_some, Message.restate, map_some, any_some, some.injEq, MessageStateRow.state,
      MessageState.mk.injEq, Message.repeats, Bool.and_eq_true, Bool.or_eq_true, decide_eq_true_eq, Bool.not_eq_true']
    cases settled record.envelope.read record.envelope.pendingAckAt record.envelope.acknowledgedAt <;>
      simp [eq_comm, and_assoc]

end Present

/-- The admission of a key that is stored leaves mail, ledger and state alone exactly when a check turns it
away or it repeats what the state row says. -/
theorem redelivery_untouched_iff (world : World) (db : Db) (queued : QueuedWrite) (record : Message)
    (hadmits : queued.op.admits = some record)
    (hstored : (db.mailMessages.find? record.mailKey).isSome = true) :
    Untouched record.mailKey db (processQueuedWrite world queued db).2 ↔
      (queued.op.checks world db).isOk = false ∨
        (db.messageStates.find? record.mailKey).any record.repeats = true := by
  obtain ⟨stored, hstored⟩ := isSome_iff_exists.mp hstored
  obtain ⟨result, hrun⟩ := execute_of_present hadmits hstored
  cases hchecks : queued.op.checks world db with
  | ok _ =>
    have hwritten : (processQueuedWrite world queued db).2 =
        { db with messageStates := upsertMessageState db.messageStates record (queued.ambient.clock 0) } := by
      rw [processQueuedWrite, hrun, hchecks]
      rfl
    rw [hwritten]
    constructor
    · rintro ⟨-, -, hstate⟩
      exact .inr ((upsertMessageState_state).mp hstate)
    · rintro (hrefused | hrepeats)
      · cases hrefused
      · exact ⟨rfl, ⟨rfl, rfl⟩, (upsertMessageState_state).mpr hrepeats⟩
  | error fault =>
    have hkept : (processQueuedWrite world queued db).2 = db := by
      rw [processQueuedWrite, hrun, hchecks]
      cases fault with
      | panic => rfl
      | err error =>
        simp only [Fallible.bind_error, audit_of_checks_error hadmits hchecks]
    rw [hkept]
    exact ⟨fun _ => .inl rfl, fun _ => ⟨rfl, .refl db, rfl⟩⟩

/-- A message delivered twice in a row. -/
theorem second_delivery_untouched :
    let message := sampleMessage sampleLead sampleMember 1
    let delivered := run .accepting [sampleWrite message] Db.empty
    Untouched message.mailKey delivered
      (processQueuedWrite .accepting ⟨.upsertMessage message .local, .steady⟩ delivered).2 :=
  (redelivery_untouched_iff .accepting _ ⟨.upsertMessage (sampleMessage sampleLead sampleMember 1) .local, .steady⟩
    (sampleMessage sampleLead sampleMember 1) rfl (by decide +kernel)).mpr (.inr (by decide +kernel))

def sampleOwing : Message :=
  let message := sampleMessage sampleLead sampleMember 1
  { message with envelope := { message.envelope with requiresAck := true, pendingAckAt := some ⟨0⟩ } }

/-- The member acknowledges the message, with a reply under the `n`-th message id. -/
def sampleAck (n : Nat) : WriteOp :=
  .acknowledge ⟨sampleTeam, sampleMember, sampleId 1⟩
    ⟨fun _ => .ok (sampleMessage sampleMember sampleLead n), fun _ _ h => by cases h⟩ .local

/-- A message is delivered and acknowledged, so a second acknowledgement is refused. Delivered once more it
is unread and owes an acknowledgement, and the second acknowledgement succeeds. -/
theorem retry_reopens_acknowledgement :
    let acknowledged := run .accepting [sampleWrite sampleOwing, .write ⟨sampleAck 2, .steady⟩] Db.empty
    let retried := (sampleWrite sampleOwing).apply .accepting acknowledged
    (acknowledged.mailMessages.find? sampleOwing.mailKey).isSome = true ∧
      (retried.messageStates.find? sampleOwing.mailKey).map MessageStateRow.state ≠
        (acknowledged.messageStates.find? sampleOwing.mailKey).map MessageStateRow.state ∧
      (execute .accepting .steady (sampleAck 3) acknowledged).isOk = false ∧
      (execute .accepting .steady (sampleAck 3) retried).isOk = true := by
  decide +kernel

end AtmCore
