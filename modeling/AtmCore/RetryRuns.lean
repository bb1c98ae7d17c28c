import AtmCore.RetryAnswers
import AtmCore.ThreadRuns

/-! The classification of a retry, over the life of a database. It fails for a report that was retained without its task
link, for what requires an acknowledgement and acknowledges a message at once, and for what the checks before the writer
turn away, as they do with every repeat of an ordinary follow-up. -/

namespace AtmCore

open Fallible

/-- The checks before a duplicate is looked for: the request, the thread and the record, and the permit of a
cron run. -/
structure Send.Reaches (world : World) (port : RenderPort) (send : Send) (seen db : Db) (submission : Submission) :
    Prop where
  real : send.input.request.dryRun = false
  submits : send.submits world port seen = .ok submission
  checks : submission.op.checks world db = .ok ()

variable {world : World} {db : Db} {submission : Submission} {port : RenderPort} {send : Send} {seen : Db}

theorem Send.Reaches.compares {envelope : StorageEnvelope}
    (h : send.Reaches world port seen db submission) (hst : StoredAs submission.record.mailKey envelope db) :
    ∃ existing, (send.persist world port seen db).1 = submission.compare send.input existing ∧
      existing.envelope = withState envelope.decode submission.record.envelope.read
        submission.record.envelope.pendingAckAt submission.record.envelope.acknowledgedAt
        submission.record.envelope.expiresAt := by
  obtain ⟨upsert, existing, written, hrun, hex, henv⟩ := Submission.execute_of_stored hst h.checks
  refine ⟨existing, ?_, henv⟩
  rw [send.persist_answered h.real, h.submits]
  show submission.answer send.input (processQueuedWrite world ⟨submission.op, send.input.ambient⟩ db).1 = _
  rw [processQueuedWrite_of_execute hrun]
  exact Submission.answer_of_existing hex

/-- An ordinary message behind another one of its thread: its parent is looked for in the mailbox. -/
def Submission.follows : Submission → Bool
  | plain record _ => record.envelope.parentMessageId.isSome
  | template _ => false

variable {provenance : MessageWriteOrigin}

theorem SendInput.submitsPlain_again {load load' : Except AtmError (List MessageEnvelope)} {input : SendInput}
    (h : input.submitsPlain world load provenance = .ok submission) (hroot : submission.follows = false) :
    input.submitsPlain world load' provenance = .ok submission := by
  have hpar : input.envelope.parentMessageId = none := by
    rw [SendInput.submitsPlain] at h
    obtain ⟨inbox, -, h⟩ := bind_eq_ok.mp h
    obtain ⟨prepared, hprep, h⟩ := bind_eq_ok.mp h
    obtain ⟨⟨⟩, -, h⟩ := bind_eq_ok.mp h
    cases h
    rcases prepareThreadedMessage_eq_ok hprep with ⟨hpar, -⟩ | ⟨parentId, -, happ⟩
    · exact hpar
    · rw [happ.prepared, Submission.follows] at hroot
      exact Option.isSome_eq_false_iff.mp hroot |> Option.isNone_iff_eq_none.mp
  have hinbox : ∀ load, input.inbox load = .ok [] := by
    intro load
    rw [SendInput.inbox, hpar]
    rfl
  rw [SendInput.submitsPlain, hinbox] at h ⊢
  exact h

/-- The checks of a send before the writer look at the mailbox only for a message that follows another one. -/
theorem Send.submits_again {seen' : Db}
    (h : send.submits world port seen = .ok submission) (hroot : submission.follows = false) :
    send.submits world port seen' = .ok submission := by
  obtain ⟨path, input⟩ := send
  rw [Send.submits] at h ⊢
  obtain ⟨request, hreq, h⟩ := bind_eq_ok.mp h
  rw [hreq, bind_ok]
  cases path with
  | sync =>
    dsimp only at h ⊢
    split at h
    · cases h
    · next hsrc =>
      rw [if_neg hsrc]
      exact SendInput.submitsPlain_again h hroot
  | async verifiedTemplate cronRunFence =>
    dsimp only at h ⊢
    split at h
    · next hsrc =>
      rw [if_pos hsrc]
      rw [SendInput.submitsAsync] at h ⊢
      cases hadmits : admittedTemplate _ verifiedTemplate with
      | some verified =>
        rw [hadmits] at h
        exact h
      | none =>
        rw [hadmits] at h
        exact SendInput.submitsPlain_again h hroot
    · cases h

variable {ambient : Ambient} {later : Db}

theorem admissionChecks_of_upsertMessage {record : Message} {outcome : UpsertResult × Db}
    (h : upsertMessage world ambient record provenance db = .ok outcome)
    (hfence : validateCronGenerationFence provenance later.cronSchedules = .ok ()) :
    admissionChecks world record provenance later = .ok () := by
  rw [upsertMessage, executeUpsertMessage, admitMessage] at h
  obtain ⟨⟨⟩, -, h⟩ := bind_eq_ok.mp h
  obtain ⟨inserted, hins, -⟩ := bind_eq_ok.mp h
  rw [insertMessageCanonical] at hins
  obtain ⟨row, hrow, -⟩ := bind_eq_ok.mp hins
  cases hprep : prepareMessageRow world record (ambient.clock 0) with
  | error error =>
    rw [hprep] at hrow
    cases hrow
  | ok row =>
    obtain ⟨hval, classification, hclass, -⟩ := prepareMessageRow_eq_ok hprep
    rw [admissionChecks, hfence, hval, hclass]
    rfl

/-- A submission that the writer took passes the checks again, as long as its cron permit is good. -/
theorem Submission.checks_of_execute {outcome : WriteOpResult × Db}
    (h : execute world ambient submission.op db = .ok outcome)
    (hfence : validateCronGenerationFence submission.provenance later.cronSchedules = .ok ()) :
    submission.op.checks world later = .ok () := by
  cases submission with
  | plain record provenance =>
    obtain ⟨result, hrun, -⟩ := bind_eq_ok.mp h
    exact admissionChecks_of_upsertMessage hrun hfence
  | template admission =>
    obtain ⟨result, hadmits, -⟩ := bind_eq_ok.mp h
    rw [executeAdmitTemplateMessage] at hadmits
    obtain ⟨⟨⟩, hval, hadmits⟩ := bind_eq_ok.mp hadmits
    obtain ⟨stored, hrun, -⟩ := bind_eq_ok.mp hadmits
    rw [Submission.op, WriteOp.checks, hval, bind_ok]
    exact admissionChecks_of_upsertMessage hrun hfence

/-- What was accepted, with its task link, is told from everything else of its key as long as the key is not deleted:
the same send again, and whatever else hands over the same record, is already delivered, and a record of other content
is a conflict. -/
theorem retry_classified (world : World) (port : RenderPort) (first : Send) (seen db stored : Db)
    (submission : Submission) (result : DeliveryPersistenceResult)
    (hreal : first.input.request.dryRun = false) (hsubmits : first.submits world port seen = .ok submission)
    (haccepted : first.persist world port seen db = (.ok result, stored)) (hnew : result.newlyPersisted = true)
    (hlinked : submission.provenance.isLocal = true → submission.record.closesTask db.tasks = true)
    (hack : submission.record.envelope.requiresAck = true → submission.record.envelope.acknowledgesMessageId = none)
    (steps : List LifeStep)
    (hkept : LifeMeets world (fun act _ => act ≠ .delete submission.record.messageKey) steps stored) (seen' : Db) :
    let later := live world steps stored
    (submission.follows = false → validateCronGenerationFence submission.provenance later.cronSchedules = .ok () →
      ∃ retried, (first.persist world port seen' later).1 = .ok retried ∧
        retried.duplicateDisposition ≠ .notDuplicate) ∧
    ∀ (again : Send) (submission' : Submission), again.Reaches world port seen' later submission' →
      submission'.record.mailKey = submission.record.mailKey →
      (submission'.record = submission.record →
        ∃ retried, (again.persist world port seen' later).1 = .ok retried ∧
          retried.duplicateDisposition ≠ .notDuplicate) ∧
      (submission'.record.envelope.content ≠ submission.record.envelope.content →
        ∃ error, (again.persist world port seen' later).1 = .error error ∧ error.code = .messageIdConflict) := by
  have hbuilt := Send.submits_built hsubmits
  rw [first.persist_answered hreal, hsubmits] at haccepted
  have hstored := (Answered.storedAs hlinked haccepted hnew).path
    (live_path (keepsKey_open) stored hkept)
  intro later
  have hsame : ∀ (again : Send) (submission' : Submission), again.Reaches world port seen' later submission' →
      submission'.record = submission.record → ∃ retried, (again.persist world port seen' later).1 = .ok retried ∧
        retried.duplicateDisposition ≠ .notDuplicate := by
    intro again submission' hreaches hrecord
    rw [← hrecord] at hstored hbuilt
    obtain ⟨existing, hanswer, hexisting⟩ := hreaches.compares hstored
    rw [hbuilt.decode (hrecord ▸ hack)] at hexisting
    obtain ⟨retried, hretried, hduplicate⟩ := Submission.compare_of_eq hbuilt hexisting
    exact ⟨retried, hanswer.trans hretried, hduplicate⟩
  refine ⟨?_, fun again submission' hreaches hkey => ⟨hsame again submission' hreaches, fun hdiffers => ?_⟩⟩
  · intro hroot hfence
    obtain ⟨outcome, hrun⟩ := Answered.execute_of_new haccepted hnew
    exact hsame first submission ⟨hreal, Send.submits_again hsubmits hroot, Submission.checks_of_execute hrun hfence⟩
      rfl
  · rw [← hkey] at hstored
    obtain ⟨existing, hanswer, hexisting⟩ := hreaches.compares hstored
    rw [hbuilt.decode hack] at hexisting
    have hcontent : existing.envelope.content ≠ submission'.record.envelope.content := by
      rw [hexisting]
      exact hdiffers.symm
    obtain ⟨error, herror, hcode⟩ := Submission.compare_of_content_ne hcontent
    exact ⟨error, hanswer.trans herror, hcode⟩

/-- The request for an acknowledgement, sent twice. -/
theorem root_sent_again :
    let stored := (sampleRoot.persist .accepting samplePort .empty .empty).2
    ∃ retried, (sampleRoot.persist .accepting samplePort stored stored).1 = .ok retried ∧
      retried.duplicateDisposition ≠ .notDuplicate :=
  (retry_classified .accepting samplePort sampleRoot .empty .empty _ _ _ rfl rfl rfl (by decide +kernel) (fun _ => rfl)
    (fun _ => rfl) [] trivial _).1 rfl rfl

/-- The lead assigns a task. -/
def sampleAssigning : Send :=
  ⟨.sync, sampleInput { sampleRequest sampleLead (.inline "body") with taskId := some sampleTask } 1⟩

/-- The lead closes the task. -/
def sampleReport (n : Nat) : Send :=
  ⟨.sync, sampleInput { sampleRequest sampleLead (.inline "body") with
    taskId := some sampleTask
    taskOp := some (.close .completed none) } n⟩

/-- The second report of a closed task is accepted and conflicts with itself, while a message without a task passes for
it. -/
theorem second_report_conflicts :
    let sends := fun (send : Send) (db : Db) => send.persist .accepting samplePort db db
    let code := fun (answer : Except AtmError DeliveryPersistenceResult) =>
      match answer with
      | .ok _ => none
      | .error error => some error.code
    let closed := (sends (sampleReport 2) (sends sampleAssigning .empty).2).2
    let (accepted, stored) := sends (sampleReport 3) closed
    (accepted.toOption.map DeliveryPersistenceResult.newlyPersisted) = some true ∧
      code (sends (sampleReport 3) stored).1 = some .messageIdConflict ∧
      ((sends ⟨.sync, sampleInput (sampleRequest sampleLead (.inline "body")) 3⟩ stored).1.toOption.map
        DeliveryPersistenceResult.duplicateDisposition) = some .alreadyDeliveredRemote := by
  decide +kernel

end AtmCore
