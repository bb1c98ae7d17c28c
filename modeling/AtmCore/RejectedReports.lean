import AtmCore.RejectionAudit

/-! Refused close reports. A close by someone without a part in the task, or to someone who no longer has one, is
refused and delivered all the same: as plain mail, without its task link, and with one event in the log. Together
with the audit of the refusals this says what every operation leaves that the ledger turns down. -/

namespace AtmCore

open Rows Fallible List

/-- The envelope of a message whose task link is dropped. -/
def MessageEnvelope.withoutTask (envelope : MessageEnvelope) : MessageEnvelope :=
  { envelope with taskId := none, taskOp := none, taskComplete := none, placement := none }

/-- A refused close report is kept as plain mail: its row without the task link, its state, and one event. -/
structure DeliversReport (record : Message) (recordedAt : IsoTimestamp) (plain : MailRow) (db db' : Db) : Prop where
  tasks : db'.tasks = db.tasks
  mail : db'.mailMessages.rows = db.mailMessages.rows ++ [plain]
  key : plain.key = record.mailKey
  envelope : plain.envelopeJson = StorageEnvelope.new record.envelope.withoutTask
  states : db'.messageStates = upsertMessageState db.messageStates record recordedAt
  audit : AuditsOnce db db'

/-- The refusals a close report survives: its sender has no part in the task, or its addressee no longer has. -/
def AtmErrorCode.refusesReport (code : AtmErrorCode) : Bool :=
  decide (code = .taskNotCounterparty) || decide (code = .taskStaleCounterparty)

variable {row : MailRow} {written : Db} {result : UpsertResult} {rows : List MailRow}

/-- The report is stored without its task, and a refusal is logged that changes no state. -/
def ReportLogged (record : Message) (db db' : Db) : Prop := ∃ event : TaskEventColumns,
  db' = { dropTaskLinkFromMail record db with taskEvents := db.taskEvents ++ [event] } ∧
    event.event = .rejected ∧ event.fromState = event.toState

section Delivery

variable {world : World} {ambient : Ambient} {record : Message} {db db' : Db} {error : AtmError}

theorem deliverRejectedCloseReport_eq_ok {taskId : TaskId} {row : TaskRow} {result : TaskMessageResult}
    (h : deliverRejectedCloseReport ambient record taskId row error db = .ok (result, db')) :
    (∃ event, result = .rejectedReportDelivered (.new error.code (error.detail ++ "; report delivered")) event) ∧
      ReportLogged record db db' := by
  obtain ⟨⟨event, events⟩, happend, h⟩ := bind_eq_ok.mp h
  cases h
  have hevs := ((appendTaskEvent_spec _ _).of_eq_ok happend).1
  dsimp only at hevs
  refine ⟨⟨event, rfl⟩, (rejectedReportDraft ambient record taskId row error).columns
    (nextEventSeq db.taskEvents record.team taskId), ?_, rfl, rfl⟩
  rw [hevs]
  rfl

/-- A report is delivered in spite of a refusal only by a close. -/
theorem applyTaskMessage_delivered {upsert : Message → Db → Outcome Db} {event : TaskEventRow}
    (h : applyTaskMessage world upsert ambient record db = .ok (.rejectedReportDelivered error event, db')) :
    error.code.refusesReport = true ∧ ReportLogged record db db' := by
  have hdelivered : ∀ {taskId : TaskId} {row : TaskRow} {refusal : AtmError}, refusal.code.refusesReport = true →
      deliverRejectedCloseReport ambient record taskId row refusal db =
        .ok (.rejectedReportDelivered error event, db') →
      error.code.refusesReport = true ∧ ReportLogged record db db' := by
    intro taskId row refusal hcode hrun
    obtain ⟨⟨delivered, hres⟩, hwr⟩ := deliverRejectedCloseReport_eq_ok hrun
    obtain ⟨rfl, -⟩ := TaskMessageResult.rejectedReportDelivered.inj hres
    exact ⟨hcode, hwr⟩
  unfold applyTaskMessage at h
  split at h
  · cases h
  next taskId _ =>
  split at h
  · obtain ⟨report, -, h⟩ := bind_eq_ok.mp h
    cases report with
    | true => cases h
    | false =>
      obtain ⟨applied, -, h⟩ := bind_eq_ok.mp h
      cases h
  · obtain ⟨started, -, h⟩ := bind_eq_ok.mp h
    cases h
  · unfold applyTaskClose at h
    obtain ⟨row, -, h⟩ := bind_eq_ok.mp h
    cases row with
    | none => cases h
    | some row =>
      dsimp only at h
      split at h
      · cases h
      split at h
      · next rejected hadmits =>
        refine hdelivered ?_ h
        unfold admitTask at hadmits
        dsimp only at hadmits
        split at hadmits
        · obtain rfl := Except.error.inj hadmits
          rfl
        · cases hadmits
      · obtain ⟨nextState, -, h⟩ := bind_eq_ok.mp h
        split at h
        · exact hdelivered rfl h
        · obtain ⟨closed, -, h⟩ := bind_eq_ok.mp h
          cases h

theorem prepareMessageRow_templateSha {recordedAt : IsoTimestamp}
    (h : prepareMessageRow world record recordedAt = .ok row) : row.templateSha = none := by
  obtain ⟨-, classification, -, rfl⟩ := prepareMessageRow_eq_ok h
  rfl

theorem upsertMessage_delivered {provenance : MessageWriteOrigin}
    (hrun : upsertMessage world ambient record provenance db = .ok (result, db'))
    (hrejected : result.taskRejection = some error) :
    error.code.refusesReport = true ∧ result.inserted = true ∧ ∃ plain, plain.templateSha = none ∧
      DeliversReport record (ambient.clock 0) plain db db' := by
  obtain ⟨_, -, hrun⟩ := bind_eq_ok.mp hrun
  obtain ⟨⟨inserted, written⟩, hins, hrun⟩ := bind_eq_ok.mp hrun
  cases inserted with
  | false =>
    obtain ⟨existing, -, hrun⟩ := bind_eq_ok.mp hrun
    cases hrun
    cases hrejected
  | true =>
    dsimp only at hrun
    split at hrun
    swap
    · cases hrun
      cases hrejected
    obtain ⟨⟨applied, written'⟩, happ, hrun⟩ := bind_eq_ok.mp hrun
    cases hrun
    cases applied with
    | applied => cases hrejected
    | rejectedReportDelivered refusal event =>
      cases hrejected
      obtain ⟨hcode, logged, hwr, hev, hstates⟩ := applyTaskMessage_delivered happ
      obtain ⟨row, mail, hrow, hfr, -, hrows, hinserted⟩ := insertMessageCanonical_eq_true hins
      have hrows' : written.mailMessages.rows = db.mailMessages.rows ++ [row] := by rw [hinserted, hrows]
      have hmail := dropTaskLinkFromMail_rows hfr (prepareMessageRow_key hrow) hrows'
      subst hinserted
      have hsha := prepareMessageRow_templateSha hrow
      have hkey := prepareMessageRow_key hrow
      refine ⟨hcode, rfl, { row with envelopeJson := StorageEnvelope.new record.envelope.withoutTask }, hsha, ?_⟩
      exact hwr ▸ ⟨rfl, hmail, hkey, rfl, rfl, logged, rfl, hev, hstates⟩

theorem map_decomposeRow_of_last {message : DecomposedMessageRecord}
    (hone : ((rows ++ [row]).filter (undecomposed message.key)).length = 1)
    (hrow : undecomposed message.key row = true) : rows.map (decomposeRow message) = rows := by
  rw [filter_append, length_append, filter_cons_of_pos hrow] at hone
  have hnone : rows.filter (undecomposed message.key) = [] := by
    refine eq_nil_of_length_eq_zero ?_
    simp only [filter_nil, length_singleton] at hone
    omega
  refine (map_congr_left (fun other hother => ?_)).trans (List.map_id' _)
  have hother' : ¬ undecomposed message.key other = true := filter_eq_nil_iff.mp hnone other hother
  exact if_neg hother'

/-- The template columns go to the row that was just inserted, or nowhere. -/
theorem executeDecomposedMessageAdmission_last {admission : DecomposedMessageAdmission}
    {outcome : DecomposedMessageAdmissionOutcome}
    (hrun : executeDecomposedMessageAdmission world admission written = .ok (outcome, db'))
    (hrows : written.mailMessages.rows = rows ++ [row]) (hkey : row.messageKey = admission.message.key)
    (hsha : row.templateSha = none) :
    db'.messageStates = written.messageStates ∧ ∃ last, db'.mailMessages.rows = rows ++ [last] ∧
      last.key = row.key ∧ last.envelopeJson = row.envelopeJson := by
  obtain ⟨templates, documents, htemplate⟩ := insertTemplateIfAbsent_eq admission.template written
  obtain ⟨_, -, hrun⟩ := bind_eq_ok.mp hrun
  dsimp only at hrun
  rw [htemplate] at hrun
  split at hrun
  · cases hrun
  split at hrun
  · split at hrun
    · cases hrun
      exact ⟨rfl, row, hrows, rfl, rfl⟩
    · cases hrun
  · obtain ⟨persisted, hpersisted, hrun⟩ := bind_eq_ok.mp hrun
    cases hrun
    have hone : (written.mailMessages.rows.filter (undecomposed admission.message.key)).length = 1 := by
      unfold persistDecomposedMessageColumns at hpersisted
      by_cases hone : (written.mailMessages.rows.filter (undecomposed admission.message.key)).length = 1
      · exact hone
      · rw [if_pos hone] at hpersisted
        cases hpersisted
    have hrow : undecomposed admission.message.key row = true := by simp [undecomposed, hkey, hsha]
    obtain ⟨documents', rfl⟩ := persistDecomposedMessageColumns_eq_ok hpersisted
    refine ⟨rfl, decomposeRow admission.message row, ?_, decomposeRow_key admission.message row, ?_⟩
    · dsimp only
      rw [Table.mapRows_rows, hrows, map_append, map_singleton]
      rw [hrows] at hone
      rw [map_decomposeRow_of_last hone hrow]
    · unfold decomposeRow
      split <;> rfl

theorem executeAdmitTemplateMessage_delivered {admission : TemplateMessageAdmission}
    (hrun : executeAdmitTemplateMessage world ambient admission db = .ok (result, db'))
    (hrejected : result.taskRejection = some error) :
    error.code.refusesReport = true ∧ ∃ plain, DeliversReport admission.record (ambient.clock 0) plain db db' := by
  obtain ⟨valid, hval, hrun⟩ := bind_eq_ok.mp hrun
  have hkey : admission.record.messageKey = admission.decomposition.message.key := by
    cases hvalidate : admission.validate world with
    | error error =>
      rw [hvalidate] at hval
      cases hval
    | ok _ => exact TemplateMessageAdmission.validate_key hvalidate
  obtain ⟨⟨upserted, written⟩, hup, hrun⟩ := bind_eq_ok.mp hrun
  dsimp only at hrun
  split at hrun
  · obtain ⟨⟨outcome, decomposed⟩, hdec, hrun⟩ := bind_eq_ok.mp hrun
    cases hrun
    obtain ⟨hcode, -, plain, hsha, hdelivered⟩ := upsertMessage_delivered hup hrejected
    have hplainKey : plain.messageKey = admission.decomposition.message.key := by
      rw [show plain.messageKey = admission.record.messageKey from congrArg (fun key => key.2.2) hdelivered.key, hkey]
    have hledger := (executeDecomposedMessageAdmission_spec world admission.decomposition written).of_eq_ok hdec
    obtain ⟨hstates, last, hlast, hlastKey, hlastEnvelope⟩ :=
      executeDecomposedMessageAdmission_last hdec hdelivered.mail hplainKey hsha
    obtain ⟨event, hevs, hev⟩ := hdelivered.audit
    exact ⟨hcode, last, hledger.tasks.trans hdelivered.tasks, hlast, hlastKey.trans hdelivered.key,
      hlastEnvelope.trans hdelivered.envelope, hstates.trans hdelivered.states, event,
      hledger.events.trans hevs, hev⟩
  · cases hrun
    cases hrejected

end Delivery

/-- The refusal an admission reports although it delivered its message. -/
def WriteOpResult.taskRejection : WriteOpResult → Option AtmError
  | .upsertMessage result | .templateMessageAdmission result => result.taskRejection
  | _ => none

/-- A refused operation changes neither tasks nor mail nor message states, and the log by exactly the one event it
owes, just in case it is not a template send or a bulk write that owes one. A refused close report that is delivered
all the same adds its mail without the task link and exactly one event, and changes no task. -/
theorem refusals_audited_iff (world : World) (queued : QueuedWrite) (hsealed : queued.op.Sealed) (db : Db) :
    (∀ error, execute world queued.ambient queued.op db = .error (.err error) →
      (LeavesRefusal (queued.op.owesAudit error) db (processQueuedWrite world queued db).2 ↔
        (queued.op.audited = true ∨ queued.op.owesAudit error = false))) ∧
    (execute world queued.ambient queued.op db = .error .panic → (processQueuedWrite world queued db).2 = db) ∧
    ∀ record result db' error, queued.op.admits = some record →
      execute world queued.ambient queued.op db = .ok (result, db') → result.taskRejection = some error →
      error.code.refusesReport = true ∧ (processQueuedWrite world queued db).2 = db' ∧
        ∃ plain, DeliversReport record (queued.ambient.clock 0) plain db db' := by
  refine ⟨fun error hrun => ?_, fun hrun => ?_, fun record result db' error hadmits hrun hrejection => ?_⟩
  · rcases processQueuedWrite_refused hsealed hrun with
      ⟨haudited, howes, row, event, hwritten, hevent⟩ | ⟨hsilent, hwritten⟩
    · rw [hwritten, howes]
      exact iff_of_true ⟨rfl, rfl, rfl, event, rfl, hevent⟩ (.inl haudited)
    · rw [hwritten]
      by_cases howes : queued.op.owesAudit error = true
      · have hunaudited : queued.op.audited = false :=
          Bool.eq_false_iff.mpr (fun haudited => hsilent ⟨haudited, howes⟩)
        rw [howes, hunaudited]
        refine iff_of_false ?_ (by simp)
        rintro ⟨-, -, -, event, hevents, -⟩
        have hlength := congrArg List.length hevents
        rw [length_append] at hlength
        simp at hlength
      · rw [Bool.not_eq_true] at howes
        rw [howes]
        exact iff_of_true ⟨rfl, rfl, rfl, rfl⟩ (.inr rfl)
  · unfold processQueuedWrite
    rw [hrun]
  · have hprocess := processQueuedWrite_of_execute hrun
    rw [hprocess]
    obtain ⟨op, ambient⟩ := queued
    cases op with
    | upsertMessage message provenance =>
      cases hadmits
      obtain ⟨⟨upserted, written⟩, hupsert, hrun⟩ := bind_eq_ok.mp hrun
      cases hrun
      obtain ⟨hcode, -, plain, -, hdelivers⟩ := upsertMessage_delivered hupsert hrejection
      exact ⟨hcode, rfl, plain, hdelivers⟩
    | admitTemplateMessage admission =>
      cases hadmits
      obtain ⟨⟨admitted, written⟩, hadmits, hrun⟩ := bind_eq_ok.mp hrun
      cases hrun
      obtain ⟨hcode, hdelivers⟩ := executeAdmitTemplateMessage_delivered hadmits hrejection
      exact ⟨hcode, rfl, hdelivers⟩
    | _ => cases hadmits

section Samples

/-- A template send of a message, with nothing in its template. -/
def sampleTemplateAdmission (message : Message) : TemplateMessageAdmission where
  record := message
  decomposition := {
    template := {
      sha := "0"
      templateType := none
      templateName := none
      contentBytes := []
      contentText := ""
      outputFormat := "text"
      frontmatter := .null
      firstSeenAt := ⟨0⟩
      firstSeenBy := sampleLead }
    message := {
      key := message.messageKey
      templateSha := "0"
      vars := []
      category := none
      tags := []
      contentFormat := none
      workflow := none } }
  provenance := .local

/-- A start of a task that does not exist. -/
def sampleStart : Message := sampleTaskMessage sampleMember sampleLead 1 (some .start)

theorem plain_start_audited :
    let queued : QueuedWrite := ⟨.upsertMessage sampleStart .local, .steady⟩
    (execute .accepting queued.ambient queued.op .empty).isOk = false ∧
      LeavesRefusal true .empty (processQueuedWrite .accepting queued .empty).2 := by
  have hrun : execute .accepting .steady (.upsertMessage sampleStart .local) .empty =
      .error (.err (taskNotFound (noOpenTask sampleTask sampleMember))) := by rfl
  refine ⟨by rw [hrun]; rfl, ?_⟩
  exact ((refusals_audited_iff .accepting ⟨.upsertMessage sampleStart .local, .steady⟩ trivial .empty).1 _ hrun).mpr
    (.inl rfl)

/-- The same start as a template send is refused alike, and leaves no event. -/
theorem template_start_not_audited :
    let queued : QueuedWrite := ⟨.admitTemplateMessage (sampleTemplateAdmission sampleStart), .steady⟩
    (∃ error, execute .accepting queued.ambient queued.op .empty = .error (.err error) ∧
        queued.op.owesAudit error = true) ∧
      (processQueuedWrite .accepting queued .empty).2.taskEvents.length = 0 := by
  refine ⟨⟨taskNotFound (noOpenTask sampleTask sampleMember), ?_, ?_⟩, ?_⟩
  · rfl
  · rfl
  · rfl

end Samples

end AtmCore
