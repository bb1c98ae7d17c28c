import AtmCore.WriterFrame
import AtmCore.LedgerMoves

/-! The writer as a whole refines the abstract ledger: every operation, whatever it is and however it ends,
takes the ledger along a path of steps made by the messages it carries, by the move it asks for or by the
audit of its refusal, and what it reports is what it logged. -/

namespace AtmCore

open Rows Fallible Option Advances Fault

/-- Only the messages of local members reach the ledger. -/
def MessageWriteOrigin.plan (provenance : MessageWriteOrigin) (record : Message) : List LedgerAct :=
  if provenance.isLocal then [.message record] else []

/-- The acts an operation may be behind, each of them once and in this order. -/
inductive WriteOp.Plan : WriteOp → List LedgerAct → Prop where
  | upsert (record : Message) (provenance : MessageWriteOrigin) :
      Plan (.upsertMessage record provenance) (provenance.plan record)
  | batch (records : List Message) : Plan (.upsertMessages records) (records.map .message)
  | reply (source : AcknowledgementSource) (builder : AcknowledgementReplyBuilder)
      (provenance : MessageWriteOrigin) (acknowledged reply : Message)
      (hreply : builder.buildReply acknowledged = .ok reply) :
      Plan (.acknowledge source builder provenance) [.message reply]
  | move (team : TeamName) (taskId : TaskId) (actor : AgentName) (target : MoveTarget)
      (instant : IsoTimestamp) (provenance : MessageWriteOrigin) :
      Plan (.taskMove team taskId actor target instant provenance) [.move team taskId actor]
  | template (admission : TemplateMessageAdmission) :
      Plan (.admitTemplateMessage admission) (admission.provenance.plan admission.record)
  | idle (op : WriteOp) : Plan op []

/-- The task events a result carries. A batch of messages and an acknowledgement carry none, whatever
their messages did. -/
def WriteOpResult.taskEvents? : WriteOpResult → Option (List TaskEventRow)
  | .upsertMessage result | .templateMessageAdmission result => some result.taskEvents
  | .taskMoved record => some [record.event]
  | .upsertMessages | .acknowledged _ _ => none
  | _ => some []

variable {provenance : MessageWriteOrigin} {world : World} {ambient : Ambient} {record : Message}

theorem validateCronGenerationFence_spec {schedules : Table CronScheduleRow.id} :
    Ensures Fault.sparesQueueIndex (fun _ => True) (validateCronGenerationFence provenance schedules) :=
  (validateCronGenerationFence_plain provenance schedules).weaken spares_of_plain

variable {db : Db} {ledger : Ledger} {admission : TemplateMessageAdmission}

/-- An admission of a key that is stored leaves the ledger alone. -/
theorem executeUpsertMessage_of_present (world : World) (depth : Nat) (ambient : Ambient) {message : Message}
    (provenance : MessageWriteOrigin) {stored : MailRow} (hst : db.mailMessages.find? message.mailKey = some stored) :
    Ensures Fault.sparesQueueIndex (fun result => SameLedger db result.2)
      (executeUpsertMessage world depth ambient message provenance db) := by
  have hadmits : executeUpsertMessage world depth ambient message provenance db =
      admitMessage world (fun _ _ => .error .panic) ambient message provenance db := by
    cases depth with
    | zero => rfl
    | succ depth =>
      rw [executeUpsertMessage, admitMessage_of_present world _ ambient provenance hst,
        admitMessage_of_present world _ ambient provenance hst]
  rw [hadmits, admitMessage_of_present world _ ambient provenance hst]
  refine (validateCronGenerationFence_spec).bind (fun _ _ => ?_)
  refine ((ensures_lift_plain (fun error => prepareMessageRow_plain)).weaken spares_of_plain).bind (fun _ _ => ?_)
  exact ((loadExistingMessage_plain message _).weaken spares_of_plain).bind (fun existing _ => ⟨rfl, rfl⟩)

theorem keepsLedger_executeUpsertMessage (world : World) (depth : Nat) (ambient : Ambient) :
    KeepsLedger (fun message db =>
      (executeUpsertMessage world depth ambient message .local db).map Prod.snd) := by
  intro message db hsome
  obtain ⟨stored, hst⟩ := isSome_iff_exists.mp hsome
  have hspec := executeUpsertMessage_of_present world depth ambient .local hst
  dsimp only
  cases hrun : executeUpsertMessage world depth ambient message .local db with
  | error fault => exact hspec.of_eq_error hrun
  | ok result => exact hspec.of_eq_ok hrun

theorem admitMessage_spec (h : Represents db ledger) {upsert : Message → Db → Outcome Db}
    (hup : KeepsLedger upsert) : Ensures Fault.sparesQueueIndex
      (fun result => Advances (provenance.plan record) db ledger result.2 result.1.taskEvents)
      (admitMessage world upsert ambient record provenance db) := by
  refine (validateCronGenerationFence_spec).bind (fun _ _ => ?_)
  refine (insertMessageCanonical_sameLedger).bind ?_
  rintro ⟨inserted, db'⟩ hsame
  cases inserted with
  | false =>
    refine ((loadExistingMessage_plain record db').weaken spares_of_plain).bind (fun existing _ => ?_)
    exact of_same h hsame
  | true =>
    dsimp only
    split
    · next hloc =>
      refine (applyTaskMessage_spec (h.congr hsame) hup).bind ?_
      rintro ⟨result, db''⟩ hadv
      have hevs : (UpsertResult.ofTask result).taskEvents = result.taskEvents := by cases result <;> rfl
      show Advances _ db ledger db'' (UpsertResult.ofTask result).taskEvents
      rw [hevs, MessageWriteOrigin.plan, if_pos hloc]
      exact hadv.of_before hsame
    · exact of_same h hsame

theorem admitMessage_not_inserted (upsert : Message → Db → Outcome Db) :
    Returns (fun result => result.1.inserted = false → result.1.taskEvents = [])
      (admitMessage world upsert ambient record provenance db) := by
  refine .skip (fun _ => (returns_any _).bind ?_)
  rintro ⟨inserted, db'⟩ -
  cases inserted with
  | false => exact (returns_any _).bind (fun existing _ _ => rfl)
  | true =>
    dsimp only
    split
    · refine (returns_any _).bind ?_
      rintro ⟨result, db''⟩ - hins
      cases result <;> cases hins
    · exact fun _ => rfl

theorem upsertMessage_spec (h : Represents db ledger) : Ensures Fault.sparesQueueIndex
      (fun result => Advances (provenance.plan record) db ledger result.2 result.1.taskEvents)
      (upsertMessage world ambient record provenance db) :=
  admitMessage_spec h (keepsLedger_executeUpsertMessage world 0 (ambient.from 4))

/-- A batch of messages goes along a path of the messages one after another. -/
theorem executeUpsertMessages_spec {records : List Message} :
    ∀ (ambient : Ambient) {db : Db} {ledger : Ledger}, Represents db ledger → Ensures Fault.sparesQueueIndex
        (fun db' => ∃ rows, Advances (records.map .message) db ledger db' rows)
        (executeUpsertMessages world ambient records db) := by
  induction records with
  | nil =>
    intro ambient db ledger h
    exact ⟨[], of_same h (.refl db)⟩
  | cons record records ih =>
    intro ambient db ledger h
    rw [executeUpsertMessages]
    refine (upsertMessage_spec h).bind ?_
    rintro ⟨result, db'⟩ hfirst
    obtain ⟨acts, ledger', hacts, hpath, hrep⟩ := hfirst.path
    refine (ih (ambient.from admissionReadings) hrep).mono ?_
    rintro db'' ⟨rows, hrest⟩
    exact ⟨result.taskEvents ++ rows, Advances.after hacts hpath hfirst.reported hrest⟩

theorem executeAcknowledgement_spec (h : Represents db ledger) {source : AcknowledgementSource}
    {builder : AcknowledgementReplyBuilder} : Ensures Fault.sparesQueueIndex
      (fun result => ∃ plan rows, (WriteOp.acknowledge source builder provenance).Plan plan ∧
        Advances plan db ledger result.2.2 rows)
      (executeAcknowledgement world ambient source builder provenance db) := by
  refine (validateCronGenerationFence_spec).bind (fun _ _ => ?_)
  refine ((loadPendingAckSource_plain).weaken spares_of_plain).bind (fun acknowledged hack => ?_)
  have hbuild : Ensures Fault.sparesQueueIndex (fun reply => builder.buildReply acknowledged = .ok reply)
      (builder.buildReply acknowledged) := by
    rw [ensures_iff]
    refine ⟨fun fault hfault => ?_, fun reply hreply => hreply⟩
    cases fault with
    | panic => trivial
    | err error =>
      exact sparesQueueIndex_of_cause_none (builder.buildReply_cause acknowledged error hfault)
  refine hbuild.bind (fun reply hreply => ?_)
  have hgrows := upsertMessage_grows world (ambient.from 1) reply .local db
  refine (upsertMessage_spec h).and_eq.bind ?_
  rintro ⟨first, db'⟩ ⟨hfirst, hrun⟩
  -- the source is stored, so its admission with the acknowledged state does not reach the ledger
  have hpresent : (db'.mailMessages.find?
      (markSourceAcknowledged acknowledged (ambient.clock 0)).mailKey).isSome = true := by
    refine (hgrows.of_eq_ok hrun).stored _ ?_
    obtain ⟨stored, hst, -⟩ := hack
    exact isSome_iff_exists.mpr ⟨stored, hst⟩
  obtain ⟨stored', hst'⟩ := isSome_iff_exists.mp hpresent
  refine (executeUpsertMessage_of_present world 1 (ambient.from (1 + admissionReadings)) .local hst').bind ?_
  rintro ⟨second, db''⟩ hsame
  exact ⟨_, first.taskEvents, .reply source builder provenance acknowledged reply hreply, hfirst.congr hsame⟩

theorem executeDecomposedMessageAdmission_spec (world : World) (admission : DecomposedMessageAdmission)
    (db : Db) : Ensures Fault.sparesQueueIndex (fun result => SameLedger db result.2)
      (executeDecomposedMessageAdmission world admission db) := by
  refine ((executeDecomposedMessageAdmission_decomposes).weaken spares_of_plain).mono ?_
  rintro ⟨_, _⟩ ⟨templates, documents, rfl | ⟨search, rfl⟩⟩ <;> exact ⟨rfl, rfl⟩

theorem TemplateMessageAdmission.validate_plain {error : AtmError}
    (h : admission.validate world = .error error) : error.Plain := by
  rcases bind_eq_error.mp h with h | ⟨_, -, h⟩
  · exact DecomposedMessageAdmission.validate_plain h
  · split at h <;> cases h
    exact ⟨rfl, rfl⟩

theorem executeAdmitTemplateMessage_spec (h : Represents db ledger) : Ensures Fault.sparesQueueIndex
      (fun result => Advances (admission.provenance.plan admission.record) db ledger result.2 result.1.taskEvents)
      (executeAdmitTemplateMessage world ambient admission db) := by
  refine ((ensures_lift_plain (fun error => TemplateMessageAdmission.validate_plain)).weaken
    spares_of_plain).bind (fun _ _ => ?_)
  refine (upsertMessage_spec h).and_eq.bind ?_
  rintro ⟨result, db'⟩ ⟨hadv, hrun⟩
  dsimp only
  split
  · refine (executeDecomposedMessageAdmission_spec world admission.decomposition db').bind ?_
    rintro ⟨outcome, db''⟩ hsame
    exact hadv.congr hsame
  · next hins =>
    have hnone : result.taskEvents = [] := (admitMessage_not_inserted _).of_eq_ok hrun (by simpa using hins)
    rw [hnone] at hadv
    exact hadv

theorem executeReadDisplayState_spec {mailbox : MailboxScope} {messageIds : List MessageKey}
    {seenWatermark : Option IsoTimestamp} : Ensures Fault.sparesQueueIndex (fun db' => SameLedger db db')
      (executeReadDisplayState ambient mailbox messageIds seenWatermark provenance db) := by
  refine (validateCronGenerationFence_spec).bind (fun _ _ => ?_)
  exact ((markMessagesRead_plain _ _ _ _ _).weaken spares_of_plain).bind (fun states _ => ⟨rfl, rfl⟩)

/-- Every operation takes the ledger along a path of its acts, and what it reports is what it logged. -/
theorem execute_spec (h : Represents db ledger) (world : World) (ambient : Ambient) (op : WriteOp) :
    Ensures Fault.sparesQueueIndex (fun result => ∃ plan rows, op.Plan plan ∧ Advances plan db ledger result.2 rows ∧
        ∀ reported, result.1.taskEvents? = some reported → rows = reported)
      (execute world ambient op db) := by
  unfold execute
  cases op with
  | applyReadDisplayState mailbox messageIds seenWatermark provenance =>
    refine (executeReadDisplayState_spec).bind ?_
    intro db' hsame
    exact ⟨[], [], .idle _, of_same h hsame, fun _ hr => some.inj hr⟩
  | deleteMessage key provenance =>
    refine Ensures.bind (P := fun db' => SameLedger db db') ?_ ?_
    · exact (validateCronGenerationFence_spec).bind (fun _ _ => ⟨rfl, rfl⟩)
    · intro db' hsame
      exact ⟨[], [], .idle _, of_same h hsame, fun _ hr => some.inj hr⟩
  | upsertMessage record provenance =>
    refine (upsertMessage_spec h).bind ?_
    rintro ⟨result, db'⟩ hadv
    exact ⟨_, result.taskEvents, .upsert record provenance, hadv, fun _ hr => some.inj hr⟩
  | upsertMessages records =>
    refine (executeUpsertMessages_spec ambient h).bind ?_
    rintro db' ⟨rows, hadv⟩
    exact ⟨_, rows, .batch records, hadv, fun _ hr => nomatch hr⟩
  | acknowledge source builder provenance =>
    refine (executeAcknowledgement_spec h).bind ?_
    rintro ⟨reply, acknowledged, db'⟩ ⟨plan, rows, hplan, hadv⟩
    exact ⟨plan, rows, hplan, hadv, fun _ hr => nomatch hr⟩
  | taskMove team taskId actor target instant provenance =>
    refine Ensures.bind (P := fun result =>
      Advances [.move team taskId actor] db ledger result.2 [result.1.event]) ?_ ?_
    · exact (validateCronGenerationFence_spec).bind (fun _ _ => applyTaskMove_spec h)
    · rintro ⟨record, db'⟩ hadv
      exact ⟨_, [record.event], .move team taskId actor target instant provenance, hadv,
        fun _ hr => some.inj hr⟩
  | registerTemplate request =>
    obtain ⟨templates, documents, heq⟩ := insertTemplateIfAbsent_eq request db
    refine Ensures.bind (P := fun result => SameLedger db result.2) ?_ ?_
    · refine (ensures_lift (Q := fun _ => True) (fun error herr => ?_) (fun _ _ => trivial)).bind (fun _ _ => ?_)
      · simp [world.validateTemplate_cause _ _ herr]
      · show SameLedger db (insertTemplateIfAbsent request db).2
        exact heq ▸ ⟨rfl, rfl⟩
    · rintro ⟨outcome, db'⟩ hsame
      exact ⟨[], [], .idle _, of_same h hsame, fun _ hr => some.inj hr⟩
  | admitDecomposedMessage admission =>
    refine (executeDecomposedMessageAdmission_spec world admission db).bind ?_
    rintro ⟨outcome, db'⟩ hsame
    exact ⟨[], [], .idle _, of_same h hsame, fun _ hr => some.inj hr⟩
  | admitTemplateMessage admission =>
    refine (executeAdmitTemplateMessage_spec h).bind ?_
    rintro ⟨result, db'⟩ hadv
    exact ⟨_, result.taskEvents, .template admission, hadv, fun _ hr => some.inj hr⟩
  | recordDiagnostics | pruneDiagnostics =>
    exact ⟨[], [], .idle _, of_same h ⟨rfl, rfl⟩, fun _ hr => some.inj hr⟩

/-- The audit of a refusal is one logged refusal, or nothing. -/
theorem appendRejectedTaskEvent_spec (h : Represents db ledger) (ambient : Ambient) (op : WriteOp)
    (error : AtmError) : Ensures Fault.sparesQueueIndex
      (fun result => Advances [.audit] db ledger result.2 result.1.toList)
      (appendRejectedTaskEvent ambient op error db) := by
  unfold appendRejectedTaskEvent
  split
  · exact of_same h (.refl db)
  have hsubj : Ensures Fault.sparesQueueIndex (fun _ => True) (rejectedEventSubject op db) := by
    unfold rejectedEventSubject
    split
    · trivial
    · exact ((loadPendingAckSource_plain).weaken spares_of_plain).bind (fun _ _ => trivial)
    · trivial
    · trivial
  refine hsubj.bind (fun subject _ => ?_)
  cases subject with
  | none => exact of_same h (.refl db)
  | some subject =>
    refine (loadTaskRow_spec).bind (fun row hload => ?_)
    refine (appendTaskEvent_spec _ db.taskEvents).bind ?_
    rintro ⟨event, events⟩ ⟨hevs, hrep⟩
    have hstep : LedgerStep .audit ledger (ledger.append (rejectedDraft ambient subject row error)) :=
      .refused .audit _ row (h.pictured.task_eq hload) ⟨rfl, rfl, rfl, rfl⟩
    exact of_append h h.pictured rfl hstep hevs hrep

/-- The acts behind a queued write: those of its operation, or the audit. -/
inductive QueuedWrite.Plan (queued : QueuedWrite) : List LedgerAct → Prop where
  | op {plan : List LedgerAct} (hplan : queued.op.Plan plan) : queued.Plan plan
  | audit : queued.Plan [.audit]

/-- The task events a reply carries, if it carries any account of them. -/
def Reply.taskEvents? : Reply → Option (List TaskEventRow)
  | .ok ⟨.ok result, _⟩ => result.taskEvents?
  | .ok ⟨.error _, events⟩ => some events
  | .error _ => some []

theorem processQueuedWrite_spec (h : Represents db ledger) {queued : QueuedWrite} :
    ∃ plan rows, queued.Plan plan ∧ Advances plan db ledger (processQueuedWrite world queued db).2 rows ∧
      ∀ reported, Reply.taskEvents? (processQueuedWrite world queued db).1 = some reported → rows = reported := by
  have hspec := execute_spec h world queued.ambient queued.op
  unfold processQueuedWrite
  cases hrun : execute world queued.ambient queued.op db with
  | ok result =>
    obtain ⟨plan, rows, hplan, hadv, hrep⟩ := hspec.of_eq_ok hrun
    exact ⟨plan, rows, .op hplan, hadv, hrep⟩
  | error fault =>
    cases fault with
    | panic => exact ⟨[], [], .op (.idle _), of_same h (.refl db), fun _ hr => some.inj hr⟩
    | err error =>
      dsimp only
      have haudit := appendRejectedTaskEvent_spec h queued.ambient queued.op error
      cases happended : appendRejectedTaskEvent queued.ambient queued.op error db with
      | ok result =>
        exact ⟨_, result.1.toList, .audit, haudit.of_eq_ok happended, fun _ hr => some.inj hr⟩
      | error fault =>
        cases fault <;> exact ⟨[], [], .op (.idle _), of_same h (.refl db), fun _ hr => some.inj hr⟩

end AtmCore
