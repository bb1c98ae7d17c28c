import AtmCore.RejectedReports

/-! Template sends beside plain ones. A template send is the plain admission of its message, followed by the record of
its template, so it does to the task ledger what the plain send does. Its refusals are not audited, it does not report
a task that was closed before, and the record of the template is refused when the key of the message is held by
another row that is not of this template. -/

namespace AtmCore

open Rows Fallible List Option

/-- What the caller of a send is told about the task of its message. -/
structure TaskOutcome where
  alreadyClosed : Option TaskCloseOutcome
  taskAssignee : Option AgentName
  queuedPosition : Option Nat
  reassignNotice : Option Message
  taskRejection : Option AtmError

def UpsertResult.taskOutcome (result : UpsertResult) : TaskOutcome where
  alreadyClosed := result.alreadyClosed
  taskAssignee := result.taskAssignee
  queuedPosition := result.queuedPosition
  reassignNotice := result.reassignNotice
  taskRejection := result.taskRejection

def WriteOpResult.taskOutcome : WriteOpResult → Option TaskOutcome
  | .upsertMessage result | .templateMessageAdmission result => some result.taskOutcome
  | _ => none

/-- The task outcome of a reply, or the error it carries. -/
def replyTaskOutcome (reply : Reply) : Except AtmError (Option TaskOutcome) :=
  reply.bind (fun committed => committed.operation.map WriteOpResult.taskOutcome)

/-- Two sends leave the same tasks and the same log, and tell their callers the same about the task. -/
structure SameMeaning (plain template : Reply × Db) : Prop where
  tasks : template.2.tasks = plain.2.tasks
  events : template.2.taskEvents = plain.2.taskEvents
  outcome : replyTaskOutcome template.1 = replyTaskOutcome plain.1

/-- The first row that is stored under the key of the message, in whatever mailbox, is not of its template. -/
def TemplateMessageAdmission.keyHeld (admission : TemplateMessageAdmission) (db : Db) : Bool :=
  (db.mailMessages.rows.find? (fun row => decide (row.messageKey = admission.record.messageKey))).any
    (fun row => decide (row.templateSha ≠ some admission.decomposition.message.templateSha))

/-- The plain send of the same message is not one that is audited or meets a closed task, and if it is stored, its
key is free for the template. -/
def TemplateMessageAdmission.plain (world : World) (ambient : Ambient) (admission : TemplateMessageAdmission)
    (db : Db) : Bool :=
  match upsertMessage world ambient admission.record admission.provenance db with
  | .error (.err error) => !(WriteOp.upsertMessage admission.record admission.provenance).owesAudit error
  | .error .panic => true
  | .ok (result, _) => !result.inserted || (result.alreadyClosed.isNone && !admission.keyHeld db)

variable {key : MessageKey} {written : Db} {rows : List MailRow} {row : MailRow} {record : Message} {db' : Db}

section Templates

variable {world : World} {ambient : Ambient}

def templatesOf (key : MessageKey) (rows : List MailRow) : List (Option String) :=
  (rows.filter (fun row => decide (row.messageKey = key))).map MailRow.templateSha

theorem templatesOf_append {rows' : List MailRow} :
    templatesOf key (rows ++ rows') = templatesOf key rows ++ templatesOf key rows' := by
  rw [templatesOf, filter_append, map_append]
  rfl

theorem templatesOf_singleton_of_eq (h : row.messageKey = key) : templatesOf key [row] = [row.templateSha] := by
  rw [templatesOf, filter_cons_of_pos (by simp [h])]
  rfl

theorem templatesOf_singleton_of_ne (h : row.messageKey ≠ key) : templatesOf key [row] = [] := by
  rw [templatesOf, filter_cons_of_neg (by simp [h])]
  rfl

theorem templatesOf_map {f : MailRow → MailRow}
    (hf : ∀ row, (f row).messageKey = row.messageKey ∧ (f row).templateSha = row.templateSha) :
    templatesOf key (rows.map f) = templatesOf key rows := by
  induction rows with
  | nil => rfl
  | cons row rows ih =>
    rw [map_cons, ← singleton_append, ← singleton_append (l := rows), templatesOf_append,
      templatesOf_append, ih]
    obtain ⟨hkey, hsha⟩ := hf row
    by_cases h : row.messageKey = key
    · rw [templatesOf_singleton_of_eq h, templatesOf_singleton_of_eq (hkey.trans h), hsha]
    · rw [templatesOf_singleton_of_ne h, templatesOf_singleton_of_ne (fun h' => h (hkey ▸ h'))]

theorem find?_templateSha (key : MessageKey) (rows : List MailRow) :
    (rows.find? (fun row => decide (row.messageKey = key))).map MailRow.templateSha = (templatesOf key rows).head? := by
  rw [templatesOf, head?_map, head?_filter]

theorem length_undecomposed (key : MessageKey) (rows : List MailRow) :
    (rows.filter (undecomposed key)).length = (templatesOf key rows).count none := by
  induction rows with
  | nil => rfl
  | cons row rows ih =>
    rw [← singleton_append, filter_append, length_append, templatesOf_append, count_append, ih]
    by_cases h : row.messageKey = key
    · rw [templatesOf_singleton_of_eq h]
      cases hsha : row.templateSha <;> simp [undecomposed, h, hsha]
    · rw [templatesOf_singleton_of_ne h]
      simp [undecomposed, h]

theorem InsertsMessage.templates {recordedAt : IsoTimestamp} {db : Db}
    (h : InsertsMessage world record recordedAt db db') (key : MessageKey) :
    templatesOf key db'.mailMessages.rows = templatesOf key db.mailMessages.rows ++
      if record.messageKey = key then [none] else [] := by
  obtain ⟨row, hrow, -, hrows⟩ := h.row
  have hkey : row.messageKey = record.messageKey := congrArg (fun key => key.2.2) (prepareMessageRow_key hrow)
  rw [hrows, templatesOf_append]
  by_cases h : record.messageKey = key
  · rw [if_pos h, templatesOf_singleton_of_eq (hkey.trans h), prepareMessageRow_templateSha hrow]
  · rw [if_neg h, templatesOf_singleton_of_ne (fun h' => h (hkey ▸ h'))]

/-- No task operation touches the templates under the key of its message. -/
theorem TaskMail.templates {db : Db} (h : TaskMail world ambient record db db')
    (hfr : MessageKey.fromAtmMessageId (ambient.fresh 1) ≠ key) :
    templatesOf key db'.mailMessages.rows = templatesOf key db.mailMessages.rows := by
  cases h with
  | untouched hmail | acknowledged requested source hload hpend hmail => rw [hmail]
  | noticed taskId oldAssignee hins =>
    rw [hins.templates key]
    have hkey : ¬ (reassignNotice record taskId oldAssignee (ambient.fresh 1)).messageKey = key := hfr
    rw [if_neg hkey, append_nil]
  | unlinked hdrop hmail hstates =>
    rw [hmail, dropTaskLinkFromMail]
    rw [Table.mapRows_rows]
    refine templatesOf_map (fun row => ?_)
    split <;> exact ⟨rfl, rfl⟩

/-- With the message stored last, its template can be recorded just in case no other row of the key comes first, or
that row is of the template. -/
theorem executeDecomposedMessageAdmission_isOk {admission : DecomposedMessageAdmission}
    {templates : List (Option String)} (hval : admission.validate world = .ok ())
    (htemplates : templatesOf admission.message.key written.mailMessages.rows = templates ++ [none]) :
    (executeDecomposedMessageAdmission world admission written).isOk = true ↔
      templates.head?.any (fun template => decide (template ≠ some admission.message.templateSha)) = false := by
  obtain ⟨catalogue, documents, hcatalogue⟩ := insertTemplateIfAbsent_eq admission.template written
  have hfirst := find?_templateSha admission.message.key written.mailMessages.rows
  have hcount := length_undecomposed admission.message.key written.mailMessages.rows
  rw [htemplates] at hfirst hcount
  unfold executeDecomposedMessageAdmission
  rw [hval]
  simp only [Outcome.lift, Fallible.bind_ok]
  rw [hcatalogue]
  cases hfind : written.mailMessages.rows.find? (fun row => decide (row.messageKey = admission.message.key)) with
  | none =>
    rw [hfind] at hfirst
    cases templates <;> cases hfirst
  | some row =>
    rw [hfind] at hfirst
    cases templates with
    | nil =>
      have hsha : row.templateSha = none := some.inj hfirst
      dsimp only
      rw [hsha]
      refine iff_of_true ?_ rfl
      have hone : ¬ (written.mailMessages.rows.filter (undecomposed admission.message.key)).length ≠ 1 := by
        rw [hcount]
        exact not_not.mpr rfl
      simp only [persistDecomposedMessageColumns]
      rw [if_neg hone]
      split <;> rfl
    | cons template templates =>
      have hsha : row.templateSha = template := some.inj hfirst
      dsimp only
      rw [hsha]
      cases template with
      | none =>
        refine iff_of_false ?_ (by simp)
        have htwo : (written.mailMessages.rows.filter (undecomposed admission.message.key)).length ≠ 1 := by
          rw [hcount, cons_append, count_cons_self, count_append, count_singleton_self]
          omega
        simp only [persistDecomposedMessageColumns]
        rw [if_pos htwo]
        exact Bool.false_ne_true
      | some sha =>
        dsimp only
        by_cases hsame : sha = admission.message.templateSha
        · rw [if_pos hsame]
          exact iff_of_true rfl (by simp [hsame])
        · rw [if_neg hsame]
          exact iff_of_false Bool.false_ne_true (by simp [hsame])

end Templates

variable {result : UpsertResult}

section Parity

variable {world : World} {ambient : Ambient} {admission : TemplateMessageAdmission} {db : Db}

theorem executeAdmitTemplateMessage_of_valid (hval : admission.validate world = .ok ()) :
    executeAdmitTemplateMessage world ambient admission db = (do
      let (result, db) ← upsertMessage world ambient admission.record admission.provenance db
      if result.inserted then do
        let (_, db) ← executeDecomposedMessageAdmission world admission.decomposition db
        return ({ result with existing := none, alreadyClosed := none }, db)
      else
        return (UpsertResult.plain false result.existing, db)) := by
  unfold executeAdmitTemplateMessage
  rw [hval]
  rfl

theorem execute_upsertMessage {provenance : MessageWriteOrigin} :
    execute world ambient (.upsertMessage record provenance) db =
      (upsertMessage world ambient record provenance db).map
        (fun written => (.upsertMessage written.1, written.2)) := by
  simp only [execute]
  cases upsertMessage world ambient record provenance db <;> rfl

theorem execute_admitTemplateMessage : execute world ambient (.admitTemplateMessage admission) db =
      (executeAdmitTemplateMessage world ambient admission db).map
        (fun written => (.templateMessageAdmission written.1, written.2)) := by
  simp only [execute]
  cases executeAdmitTemplateMessage world ambient admission db <;> rfl

theorem replyTaskOutcome_of_error {queued : QueuedWrite} {fault : Fault}
    (h : execute world queued.ambient queued.op db = .error fault) :
    ∃ error, replyTaskOutcome (processQueuedWrite world queued db).1 = .error error := by
  unfold processQueuedWrite
  rw [h]
  cases fault with
  | panic => exact ⟨writerPanicked, rfl⟩
  | err error =>
    dsimp only
    split
    · exact ⟨error, rfl⟩
    · next auditError _ => exact ⟨auditError, rfl⟩
    · exact ⟨writerPanicked, rfl⟩

/-- The record of the template succeeds after the message was stored, just in case its key is free for it. -/
theorem decomposition_isOk_iff (hval : admission.validate world = .ok ())
    (hfr : MessageKey.fromAtmMessageId (ambient.fresh 1) ≠ admission.record.messageKey)
    (hrun : upsertMessage world ambient admission.record admission.provenance db = .ok (result, written))
    (hinserted : result.inserted = true) :
    (executeDecomposedMessageAdmission world admission.decomposition written).isOk = true ↔
      admission.keyHeld db = false := by
  have hdecomposition : admission.decomposition.validate world = .ok () := by
    obtain ⟨_, hval, -⟩ := bind_eq_ok.mp hval
    exact hval
  have hkey := TemplateMessageAdmission.validate_key hval
  have htemplates : templatesOf admission.decomposition.message.key written.mailMessages.rows =
      templatesOf admission.decomposition.message.key db.mailMessages.rows ++ [none] := by
    rw [← hkey]
    cases (upsertMessage_admitted world ambient admission.record admission.provenance db).of_eq_ok hrun with
    | present existing hex hres hmail hstates =>
      rw [show result = UpsertResult.plain false (some existing) from hres] at hinserted
      cases hinserted
    | inserted stored hins htasks htask hres =>
      rw [htask.templates hfr, hins.templates, if_pos rfl]
  rw [executeDecomposedMessageAdmission_isOk hdecomposition htemplates, ← find?_templateSha, Option.any_map, ← hkey]
  rfl

/-- A plain send that fails, beside the template send, which fails with it. -/
theorem sameMeaning_of_error {error : AtmError} (hval : admission.validate world = .ok ())
    (hrun : upsertMessage world ambient admission.record admission.provenance db = .error (.err error)) :
    SameMeaning (processQueuedWrite world ⟨.upsertMessage admission.record admission.provenance, ambient⟩ db)
        (processQueuedWrite world ⟨.admitTemplateMessage admission, ambient⟩ db) ↔
      (WriteOp.upsertMessage admission.record admission.provenance).owesAudit error = false := by
  have hplain : execute world ambient (.upsertMessage admission.record admission.provenance) db =
      .error (.err error) := by
    rw [execute_upsertMessage, hrun]
    rfl
  have htemplate : execute world ambient (.admitTemplateMessage admission) db = .error (.err error) := by
    rw [execute_admitTemplateMessage, executeAdmitTemplateMessage_of_valid hval, hrun]
    rfl
  have hsilent : processQueuedWrite world ⟨.admitTemplateMessage admission, ambient⟩ db =
      (.ok ⟨.error error, []⟩, db) := by
    rcases @processQueuedWrite_refused world ⟨.admitTemplateMessage admission, ambient⟩ db error trivial htemplate with
      ⟨haudited, -⟩ | ⟨-, hsilent⟩
    · cases haudited
    · exact hsilent
  rw [hsilent]
  rcases @processQueuedWrite_refused world ⟨.upsertMessage admission.record admission.provenance, ambient⟩ db error
    trivial hplain with ⟨-, howes, row, event, haudit, -⟩ | ⟨hnot, haudit⟩
  · rw [haudit, show (WriteOp.upsertMessage admission.record admission.provenance).owesAudit error = true from howes]
    refine iff_of_false (fun hsame => ?_) (by simp)
    have hlen := congrArg List.length hsame.events
    rw [length_append] at hlen
    simp at hlen
  · rw [haudit]
    refine iff_of_true ⟨rfl, rfl, rfl⟩ (Bool.eq_false_iff.mpr (fun howes => hnot ⟨rfl, howes⟩))

/-- A plain send that succeeds, beside the template send. -/
theorem sameMeaning_of_ok (hval : admission.validate world = .ok ())
    (hfr : MessageKey.fromAtmMessageId (ambient.fresh 1) ≠ admission.record.messageKey)
    (hrun : upsertMessage world ambient admission.record admission.provenance db = .ok (result, written)) :
    SameMeaning (processQueuedWrite world ⟨.upsertMessage admission.record admission.provenance, ambient⟩ db)
        (processQueuedWrite world ⟨.admitTemplateMessage admission, ambient⟩ db) ↔
      (result.inserted = true → result.alreadyClosed = none ∧ admission.keyHeld db = false) := by
  have hplain : execute world ambient (.upsertMessage admission.record admission.provenance) db =
      .ok (.upsertMessage result, written) := by
    rw [execute_upsertMessage, hrun]
    rfl
  rw [processQueuedWrite_of_execute hplain]
  have htemplate : execute world ambient (.admitTemplateMessage admission) db =
      (executeAdmitTemplateMessage world ambient admission db).map
        (fun written => (.templateMessageAdmission written.1, written.2)) := execute_admitTemplateMessage
  rw [executeAdmitTemplateMessage_of_valid hval, hrun] at htemplate
  simp only [Fallible.bind_ok] at htemplate
  by_cases hinserted : result.inserted = true
  swap
  · rw [if_neg hinserted] at htemplate
    rw [processQueuedWrite_of_execute htemplate]
    refine iff_of_true ⟨rfl, rfl, ?_⟩ (fun h => absurd h hinserted)
    cases (upsertMessage_admitted world ambient admission.record admission.provenance db).of_eq_ok hrun with
    | present existing hex hres hmail hstates =>
      rw [show result = UpsertResult.plain false (some existing) from hres]
      rfl
    | inserted stored hins htasks htask hres => exact absurd hres.1 hinserted
  rw [if_pos hinserted] at htemplate
  have hdecomposed := decomposition_isOk_iff hval hfr hrun hinserted
  cases hdec : executeDecomposedMessageAdmission world admission.decomposition written with
  | error fault =>
    rw [hdec] at hdecomposed htemplate
    refine iff_of_false (fun hsame => ?_) (fun h => Bool.false_ne_true (hdecomposed.mpr (h hinserted).2))
    obtain ⟨error, herr⟩ := @replyTaskOutcome_of_error world db ⟨.admitTemplateMessage admission, ambient⟩
      fault htemplate
    have hout := hsame.outcome
    rw [herr] at hout
    cases hout
  | ok decomposed =>
    rw [hdec] at hdecomposed htemplate
    have hledger := (executeDecomposedMessageAdmission_spec world admission.decomposition written).of_eq_ok hdec
    rw [processQueuedWrite_of_execute htemplate]
    constructor
    · intro hsame _
      have hout := some.inj (Except.ok.inj hsame.outcome)
      exact ⟨(congrArg TaskOutcome.alreadyClosed hout).symm, hdecomposed.mp rfl⟩
    · intro h
      refine ⟨hledger.tasks, hledger.events, ?_⟩
      show (Except.ok (some _) : Except AtmError (Option TaskOutcome)) = Except.ok (some _)
      rw [UpsertResult.taskOutcome, UpsertResult.taskOutcome, (h hinserted).1]

end Parity

/-- A valid template send means to the ledger and to its caller what the plain send of the same message means, just
in case the plain send is neither refused with an audit nor meets a closed task, and no other row of another template
holds its key. The id of the notice to a former assignee is fresh. -/
theorem template_send_means_plain_send_iff (world : World) (ambient : Ambient) (admission : TemplateMessageAdmission)
    (hvalid : admission.validate world = .ok ())
    (hfresh : MessageKey.fromAtmMessageId (ambient.fresh 1) ≠ admission.record.messageKey) (db : Db) :
    SameMeaning (processQueuedWrite world ⟨.upsertMessage admission.record admission.provenance, ambient⟩ db)
        (processQueuedWrite world ⟨.admitTemplateMessage admission, ambient⟩ db) ↔
      admission.plain world ambient db = true := by
  unfold TemplateMessageAdmission.plain
  cases hrun : upsertMessage world ambient admission.record admission.provenance db with
  | ok result =>
    rw [sameMeaning_of_ok hvalid hfresh hrun]
    cases hinserted : result.1.inserted <;> simp [hinserted]
  | error fault =>
    cases fault with
    | err error =>
      rw [sameMeaning_of_error hvalid hrun]
      simp
    | panic =>
      refine iff_of_true ?_ rfl
      unfold processQueuedWrite
      simp only [execute_upsertMessage, execute_admitTemplateMessage, executeAdmitTemplateMessage_of_valid hvalid, hrun]
      exact ⟨rfl, rfl, rfl⟩

/-- The first assignment of a task, as a template send and plain. -/
theorem template_assignment_means_plain_assignment :
    let admission := sampleTemplateAdmission (sampleTaskMessage sampleLead sampleMember 1 none)
    SameMeaning (processQueuedWrite .accepting ⟨.upsertMessage admission.record .local, .steady⟩ .empty)
      (processQueuedWrite .accepting ⟨.admitTemplateMessage admission, .steady⟩ .empty) := by
  intro admission
  exact (template_send_means_plain_send_iff .accepting .steady admission rfl (by decide) .empty).mpr
    (by decide +kernel)

section Samples

/-- The store after a task was assigned and completed. -/
def sampleClosed : Db :=
  run .accepting [sampleWrite (sampleTaskMessage sampleLead sampleMember 1 none),
    sampleWrite (sampleTaskMessage sampleMember sampleLead 2 (some (.close .completed none)))] .empty

def sampleReclose : Message := sampleTaskMessage sampleMember sampleLead 3 (some (.close .completed none))

/-- The close a reply reports as done before. -/
def reportedClose (reply : Reply) : Option TaskCloseOutcome :=
  match replyTaskOutcome reply with
  | .ok (some outcome) => outcome.alreadyClosed
  | _ => none

theorem SameMeaning.reportedClose_eq {plain template : Reply × Db} (h : SameMeaning plain template) :
    reportedClose template.1 = reportedClose plain.1 := by
  rw [reportedClose, reportedClose, h.outcome]

/-- A refused start leaves an event only when it is sent plain, and only then is a second close told of the first. -/
theorem template_send_not_plain_send :
    ¬ SameMeaning (processQueuedWrite .accepting ⟨.upsertMessage sampleStart .local, .steady⟩ .empty)
        (processQueuedWrite .accepting ⟨.admitTemplateMessage (sampleTemplateAdmission sampleStart), .steady⟩ .empty) ∧
      ¬ SameMeaning (processQueuedWrite .accepting ⟨.upsertMessage sampleReclose .local, .steady⟩ sampleClosed)
        (processQueuedWrite .accepting ⟨.admitTemplateMessage (sampleTemplateAdmission sampleReclose), .steady⟩
          sampleClosed) := by
  refine ⟨fun hsame => ?_, fun hsame => ?_⟩
  · have hlength := congrArg List.length hsame.events
    revert hlength
    decide +kernel
  · have hclose := hsame.reportedClose_eq
    revert hclose
    decide +kernel

end Samples

end AtmCore
