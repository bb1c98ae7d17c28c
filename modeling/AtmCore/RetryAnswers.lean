import AtmCore.SendRetries

/-! What a retry is answered. A stored message keeps its envelope until its key is deleted, so the writer answers the
submission of a stored key with the envelope that was accepted, unless that one lost its task link in the admission.
The sender compares the answer with what it submitted. -/

namespace AtmCore

open Rows Fallible Table

mutual

theorem Value.beq_refl : ∀ value : Value, value.beq value = true
  | .null => rfl
  | .bool value => beq_self_eq_true value
  | .posInt value => beq_self_eq_true value
  | .negInt value => beq_self_eq_true value
  | .float text => beq_self_eq_true text
  | .string value => beq_self_eq_true value
  | .array items => beqItems_refl items
  | .object members => beqMembers_refl members

theorem beqItems_refl : ∀ items : List Value, beqItems items items = true
  | [] => rfl
  | item :: items => by rw [beqItems, item.beq_refl, beqItems_refl items]; rfl

theorem beqMembers_refl : ∀ members : List (String × Value), beqMembers members members = true
  | [] => rfl
  | (name, value) :: members => by rw [beqMembers, beq_self_eq_true, value.beq_refl, beqMembers_refl members]; rfl

end

theorem MessageEnvelope.same_refl (envelope : MessageEnvelope) : envelope.same envelope = true := by
  have hextra : sameMembers envelope.extra envelope.extra = true := Value.beq_refl _
  simp only [MessageEnvelope.same, hextra, decide_true, Bool.and_self]

/-- What makes a message the message it is: its sender, its text, its links to a task and to a thread, and whether it
requires an acknowledgement. -/
structure MessageContent where
  «from» : AgentName
  sourceTeam : Option TeamName
  sourceChatId : Option ChatId
  text : String
  taskId : Option TaskId
  taskOp : Option TaskOp
  placement : Option MoveTarget
  parentMessageId : Option AtmMessageId
  threadMode : Option ThreadMode
  requiresAck : Bool
  deriving DecidableEq

def MessageEnvelope.content (envelope : MessageEnvelope) : MessageContent where
  «from» := envelope.from
  sourceTeam := envelope.sourceTeam
  sourceChatId := envelope.sourceChatId
  text := envelope.text
  taskId := envelope.taskId
  taskOp := envelope.taskOp
  placement := envelope.placement
  parentMessageId := envelope.parentMessageId
  threadMode := envelope.threadMode
  requiresAck := envelope.requiresAck

theorem MessageEnvelope.content_of_same {left right : MessageEnvelope} (h : left.same right = true) :
    left.content = right.content := by
  simp only [MessageEnvelope.same, Bool.and_eq_true, decide_eq_true_eq] at h
  simp only [MessageEnvelope.content, MessageContent.mk.injEq]
  tauto

/-- The message of a key is stored with an envelope. -/
def StoredAs (key : MailKey) (envelope : StorageEnvelope) (db : Db) : Prop :=
  ∃ row, db.mailMessages.find? key = some row ∧ row.envelopeJson = envelope

section Stored

variable {world : World} {key : MailKey} {envelope : StorageEnvelope} {record : Message} {db db' : Db}
  {ambient : Ambient}

theorem StoredAs.of_mail_eq (h : StoredAs key envelope db) (hmail : db'.mailMessages = db.mailMessages) :
    StoredAs key envelope db' := by
  rw [StoredAs, hmail]
  exact h

/-- Only the deletion of its key takes a message away, and nothing changes its envelope. -/
theorem StoredAs.does {act : MailAct} (h : StoredAs key envelope db) (hact : act ≠ .delete key.2.2)
    (hdoes : act.Does world db db') : StoredAs key envelope db' := by
  cases hdoes with
  | @store record linked recordedAt row hfr hrow hconf hmail hstates =>
    obtain ⟨stored, hfind, henv⟩ := h
    refine ⟨stored, ?_, henv⟩
    have hother : (row.keeping record linked).key ≠ key := by
      intro heq
      rw [← prepareMessageRow_key hrow, show row.key = key from heq, hfind] at hfr
      cases hfr
    rw [find?_of_rows_append hmail, if_neg hother, hfind]
  | restate updatedAt stored hst hmail | acknowledge requested updatedAt hload hpend hmail
  | read updatedAt nextDue hmail | reopen hmail =>
    exact h.of_mail_eq hmail
  | @decompose message hmail hstates =>
    obtain ⟨stored, hfind, henv⟩ := h
    refine ⟨decomposeRow message stored, ?_, (decomposeRow_envelopeJson).trans henv⟩
    rw [hmail, find?_mapRows, hfind]
    rfl
  | @delete deleted hmail hstates =>
    obtain ⟨stored, hfind, henv⟩ := h
    refine ⟨stored, ?_, henv⟩
    have hkept : stored.messageKey ≠ deleted := by
      intro heq
      have hkey : stored.messageKey = key.2.2 := congrArg (fun key : MailKey => key.2.2) (key_of_find? hfind)
      exact hact (congrArg MailAct.delete (heq.symm.trans hkey))
    rw [hmail, find?_filterRows, hfind]
    simp [hkept]

theorem StoredAs.path (h : StoredAs key envelope db)
    (hpath : MailPath world (fun act _ => act ≠ .delete key.2.2) db db') : StoredAs key envelope db' :=
  hpath.keeps (fun _ _ hsame h => h.of_mail_eq hsame.messages) (fun _ _ _ hact hdoes h => h.does hact hdoes) h

theorem InsertsMessage.storedAs {recordedAt : IsoTimestamp} (h : InsertsMessage world record recordedAt db db') :
    StoredAs record.mailKey (.new record.envelope) db' := by
  obtain ⟨row, hrow, -, hrows⟩ := h.row
  refine ⟨row, ?_, ?_⟩
  · rw [find?_of_rows_append hrows, if_pos (prepareMessageRow_key hrow)]
  · obtain ⟨-, classification, -, rfl⟩ := prepareMessageRow_eq_ok hrow
    rfl

/-- A task operation that does not drop the link of its message keeps the message as it was stored. -/
theorem TaskMail.storedAs (h : StoredAs key envelope db)
    (hlink : record.closesTask db.tasks = true) (htask : TaskMail world ambient record db db') :
    StoredAs key envelope db' := by
  cases htask with
  | untouched hmail | acknowledged requested source hload hpend hmail => exact h.of_mail_eq hmail
  | noticed taskId oldAssignee hins => exact h.does (by simp) hins.does
  | unlinked hdrop hmail hstates =>
    rw [hlink] at hdrop
    cases hdrop

/-- An admission finds the key stored, or stores the record as it is. -/
inductive Retains (record : Message) (result : UpsertResult) (written : Db) : Prop where
  | duplicate (existing : Message) (hinserted : result.inserted = false) (hexisting : result.existing = some existing)
  | fresh (hinserted : result.inserted = true) (hexisting : result.existing = none)
      (hstored : StoredAs record.mailKey (.new record.envelope) written)

theorem upsertMessage_retains {provenance : MessageWriteOrigin}
    (hlink : provenance.isLocal = true → record.closesTask db.tasks = true) :
    Returns (fun result => Retains record result.1 result.2) (upsertMessage world ambient record provenance db) := by
  rw [upsertMessage, executeUpsertMessage, admitMessage]
  refine .skip (fun _ => (returns_any _).and_eq.bind ?_)
  rintro ⟨inserted, stored⟩ ⟨-, hins⟩
  cases inserted with
  | false => exact .skip (fun existing => .duplicate existing rfl rfl)
  | true =>
    have hst := (insertMessageCanonical_inserts hins).storedAs
    have htasks : stored.tasks = db.tasks := by
      obtain ⟨row, mail, -, -, -, -, rfl⟩ := insertMessageCanonical_eq_true hins
      rfl
    dsimp only
    split
    · next hloc =>
      refine (applyTaskMessage_writes (executeUpsertMessage_restates)).bind ?_
      rintro ⟨result, written⟩ hwr
      obtain ⟨hinserted, hex⟩ := UpsertResult.ofTask_inserted
      exact .fresh hinserted hex (hwr.mail.storedAs hst (htasks ▸ hlink hloc))
    · exact .fresh rfl rfl hst

theorem keepsKey_beside {key : MessageKey} : MailGuard.Beside (fun act _ => act ≠ .delete key) where
  notice := fun _ _ _ _ _ h => by cases h
  acknowledge := fun _ _ _ h => by cases h
  decompose := fun _ _ h => by cases h

theorem keepsKey_open {key : MessageKey} : MailGuard.Open (fun act _ => act ≠ .delete key) where
  toBeside := keepsKey_beside
  read := fun _ _ h => by cases h
  acknowledged := fun _ _ _ _ _ h => by cases h

end Stored

def Submission.result (submission : Submission) (result : UpsertResult) : WriteOpResult :=
  match submission with
  | .plain _ _ => .upsertMessage result
  | .template _ => .templateMessageAdmission result

variable {existing : Message} {envelope : MessageEnvelope} {input : SendInput} {result : DeliveryPersistenceResult}
  {messageId : AtmMessageId} {mailbox : MailboxScope} {receipt : Option (HostName × HostName)}

section Submitted

variable {world : World} {ambient : Ambient} {submission : Submission} {db : Db}

theorem Submission.execute_retains
    (hlink : submission.provenance.isLocal = true → submission.record.closesTask db.tasks = true) :
    Returns (fun result => ∃ upsert, result.1 = submission.result upsert ∧ Retains submission.record upsert result.2)
      (execute world ambient submission.op db) := by
  cases submission with
  | plain record provenance =>
    refine (upsertMessage_retains hlink).bind ?_
    rintro ⟨result, written⟩ hret
    exact ⟨result, rfl, hret⟩
  | template admission =>
    refine Ensures.bind (P := fun result => Retains admission.record result.1 result.2) ?_ ?_
    · rw [executeAdmitTemplateMessage]
      refine .skip (fun _ => (upsertMessage_retains hlink).bind ?_)
      rintro ⟨result, stored⟩ hret
      dsimp only at hret ⊢
      cases hret with
      | duplicate existing hins hex =>
        rw [if_neg (by rw [hins]; decide)]
        exact .duplicate existing rfl hex
      | fresh hins hex hst =>
        rw [if_pos hins]
        refine (executeDecomposedMessageAdmission_decomposes).returns.bind ?_
        rintro ⟨outcome, written⟩ hdec
        exact .fresh hins rfl (hst.path (hdec.path world (keepsKey_beside)))
    · rintro ⟨result, written⟩ hret
      exact ⟨result, rfl, hret⟩

/-- Of a stored key nobody is told that it was newly persisted. -/
theorem classifyExistingMessage_ne {disposition : DuplicateWriteDisposition}
    (h : classifyExistingMessage existing envelope messageId mailbox receipt = .ok disposition) :
    disposition ≠ .notDuplicate := by
  unfold classifyExistingMessage at h
  split at h
  · split at h
    · cases h
      decide
    · obtain ⟨target, -, h⟩ := bind_eq_ok.mp h
      split at h
      · cases h
        decide
      · cases h
        decide
  · cases h

theorem classifyExistingMessage_of_match (hmatch : immutableEnvelopesMatch existing.envelope envelope = true)
    (htarget : ∃ host, peerDeliveryTarget existing.envelope = .ok host) :
    ∃ disposition, classifyExistingMessage existing envelope messageId mailbox receipt = .ok disposition := by
  obtain ⟨host, hhost⟩ := htarget
  unfold classifyExistingMessage
  rw [if_pos hmatch]
  cases receipt with
  | none => exact ⟨_, rfl⟩
  | some receipt =>
    dsimp only
    rw [hhost, bind_ok]
    split
    · exact ⟨_, rfl⟩
    · exact ⟨_, rfl⟩

theorem classifyExistingMessage_of_not_match (hmatch : ¬ immutableEnvelopesMatch existing.envelope envelope = true) :
    ∃ error, classifyExistingMessage existing envelope messageId mailbox receipt = .error error ∧
      error.code = .messageIdConflict := by
  unfold classifyExistingMessage
  rw [if_neg hmatch]
  exact ⟨_, rfl, rfl⟩

/-- What the sender makes of a record that the writer retained before. -/
def Submission.compare (submission : Submission) (input : SendInput) (existing : Message) :
    Except AtmError DeliveryPersistenceResult :=
  match submission with
  | .plain record _ => do
    let duplicate ← classifyExistingMessage existing record.envelope input.identity.messageId input.context.recipient
      input.peerReceipt
    return .new duplicate record.envelope
  | .template admission =>
    if existing.envelope.same admission.record.envelope then
      .ok (.new .alreadyDeliveredRemote admission.record.envelope)
    else
      .error (.messageIdConflict
        s!"message {input.identity.messageId.toText} already exists with different immutable data")

theorem Submission.answer_of_existing {upsert : UpsertResult} (hex : upsert.existing = some existing) :
    submission.answer input (committedReply (submission.result upsert)) = submission.compare input existing := by
  obtain ⟨inserted, _, _, _, _, _, _, _⟩ := upsert
  obtain rfl := hex
  cases submission with
  | plain | template => cases inserted <;> rfl

theorem Submission.not_new_of_compare (h : submission.compare input existing = .ok result) :
    result.newlyPersisted = false := by
  cases submission with
  | plain record provenance =>
    obtain ⟨disposition, hclass, h⟩ := bind_eq_ok.mp h
    cases h
    exact decide_eq_false (classifyExistingMessage_ne hclass)
  | template admission =>
    rw [Submission.compare] at h
    split at h
    · cases h
      rfl
    · cases h

/-- Of a write that failed nobody is told that it was newly persisted. -/
theorem Submission.not_new_of_fault {fault : Fault} (hrun : execute world ambient submission.op db = .error fault)
    (h : submission.answer input (processQueuedWrite world ⟨submission.op, ambient⟩ db).1 = .ok result) :
    result.newlyPersisted = false := by
  have href : ∀ error events, submission.answer input (.ok ⟨.error error, events⟩) = .ok result →
      result.newlyPersisted = false := by
    intro error events h
    cases submission with
    | plain | template =>
      cases h
      rfl
  have hfail : ∀ error, submission.answer input (.error error) ≠ .ok result := by
    intro error h
    cases submission with
    | plain | template => cases h
  rw [processQueuedWrite, hrun] at h
  cases fault with
  | panic => exact absurd h (hfail _)
  | err error =>
    dsimp only at h
    split at h
    · exact href _ _ h
    · exact absurd h (hfail _)
    · exact absurd h (hfail _)

theorem Answered.execute_of_new {stored : Db}
    (h : Answered world input (.ok submission) db = (.ok result, stored)) (hnew : result.newlyPersisted = true) :
    ∃ outcome, execute world input.ambient submission.op db = .ok outcome := by
  cases hrun : execute world input.ambient submission.op db with
  | error fault =>
    have hanswer : submission.answer input (processQueuedWrite world ⟨submission.op, input.ambient⟩ db).1 =
      .ok result :=
      congrArg Prod.fst h
    rw [Submission.not_new_of_fault hrun hanswer] at hnew
    cases hnew
  | ok outcome => exact ⟨outcome, rfl⟩

/-- A record that was accepted with its task link is stored as it was submitted. -/
theorem Answered.storedAs {stored : Db}
    (hlink : submission.provenance.isLocal = true → submission.record.closesTask db.tasks = true)
    (h : Answered world input (.ok submission) db = (.ok result, stored)) (hnew : result.newlyPersisted = true) :
    StoredAs submission.record.mailKey (.new submission.record.envelope) stored := by
  obtain ⟨⟨opResult, written⟩, hrun⟩ := Answered.execute_of_new h hnew
  have hanswer : submission.answer input (processQueuedWrite world ⟨submission.op, input.ambient⟩ db).1 = .ok result :=
    congrArg Prod.fst h
  have hst : (processQueuedWrite world ⟨submission.op, input.ambient⟩ db).2 = stored := congrArg Prod.snd h
  obtain ⟨upsert, rfl, hret⟩ := (Submission.execute_retains hlink).of_eq_ok hrun
  rw [processQueuedWrite_of_execute hrun] at hanswer hst
  obtain rfl := hst
  cases hret with
  | duplicate existing hins hex =>
    rw [Submission.answer_of_existing hex] at hanswer
    rw [Submission.not_new_of_compare hanswer] at hnew
    cases hnew
  | fresh hins hex hst => exact hst

/-- The writer answers the submission of a stored key with the retained envelope, under the state of the request. -/
theorem Submission.execute_of_stored {envelope : StorageEnvelope}
    (hst : StoredAs submission.record.mailKey envelope db) (hchecks : submission.op.checks world db = .ok ()) :
    ∃ upsert existing written, execute world ambient submission.op db = .ok (submission.result upsert, written) ∧
      upsert.existing = some existing ∧ existing.envelope = withState envelope.decode submission.record.envelope.read
        submission.record.envelope.pendingAckAt submission.record.envelope.acknowledgedAt
        submission.record.envelope.expiresAt := by
  obtain ⟨row, hrow, rfl⟩ := hst
  obtain ⟨existing, hload, hrun⟩ := upsertMessage_of_present world ambient submission.provenance hrow
  have henv : existing.envelope = withState row.envelopeJson.decode submission.record.envelope.read
      submission.record.envelope.pendingAckAt submission.record.envelope.acknowledgedAt
      submission.record.envelope.expiresAt := by
    rw [loadExistingMessage, hrow, find?_upsertMessageState, if_pos rfl] at hload
    cases hload
    cases db.messageStates.find? submission.record.mailKey <;> rfl
  refine ⟨.plain false (some existing), existing, { db with
    messageStates := upsertMessageState db.messageStates submission.record (ambient.clock 0) }, ?_, rfl, henv⟩
  cases submission with
  | plain record provenance =>
    have hadmits : admissionChecks world record provenance db = .ok () := hchecks
    rw [Submission.provenance, Submission.record, hadmits, bind_ok] at hrun
    rw [Submission.op, execute, hrun]
    rfl
  | template admission =>
    obtain ⟨⟨⟩, hval, hadmits⟩ := bind_eq_ok.mp hchecks
    rw [Submission.provenance, Submission.record, hadmits, bind_ok] at hrun
    rw [Submission.op, execute, executeAdmitTemplateMessage, hval, bind_ok, hrun]
    rfl

theorem Submission.compare_of_eq (hbuilt : submission.record.Built)
    (hsame : existing.envelope = submission.record.envelope) :
    ∃ result, submission.compare input existing = .ok result ∧ result.duplicateDisposition ≠ .notDuplicate := by
  cases submission with
  | plain record provenance =>
    rw [Submission.record] at hsame
    have hmatch : immutableEnvelopesMatch existing.envelope record.envelope = true := by
      rw [hsame]
      exact MessageEnvelope.same_refl _
    obtain ⟨disposition, hclass⟩ := classifyExistingMessage_of_match hmatch (hsame ▸ hbuilt.target)
    refine ⟨.new disposition record.envelope, ?_, classifyExistingMessage_ne hclass⟩
    rw [Submission.compare, hclass]
    rfl
  | template admission =>
    rw [Submission.record] at hsame
    refine ⟨.new .alreadyDeliveredRemote admission.record.envelope, ?_, fun h => by cases h⟩
    rw [Submission.compare, hsame, if_pos admission.record.envelope.same_refl]

theorem Submission.compare_of_content_ne (hdiffers : existing.envelope.content ≠ submission.record.envelope.content) :
    ∃ error, submission.compare input existing = .error error ∧ error.code = .messageIdConflict := by
  cases submission with
  | plain record provenance =>
    have hmatch : ¬ immutableEnvelopesMatch existing.envelope record.envelope = true :=
      fun h => hdiffers (by have hsame := MessageEnvelope.content_of_same h; exact hsame)
    obtain ⟨error, hclass, hcode⟩ := classifyExistingMessage_of_not_match hmatch
    refine ⟨error, ?_, hcode⟩
    rw [Submission.compare, hclass]
    rfl
  | template admission =>
    have hmatch : ¬ existing.envelope.same admission.record.envelope = true :=
      fun h => hdiffers (MessageEnvelope.content_of_same h)
    rw [Submission.compare, if_neg hmatch]
    exact ⟨_, rfl, rfl⟩

/-- A built envelope reads back from the store, unless it requires an acknowledgement and acknowledges one. -/
theorem Message.Built.decode {record : Message} (hbuilt : record.Built)
    (hack : record.envelope.requiresAck = true → record.envelope.acknowledgesMessageId = none) :
    (StorageEnvelope.new record.envelope).decode = record.envelope := by
  have hreq : (record.envelope.pendingAckAt.isSome && record.envelope.acknowledgesMessageId.isNone) =
      record.envelope.requiresAck := by
    rw [hbuilt.pending]
    cases hrequired : record.envelope.requiresAck with
    | false => rfl
    | true => rw [hack hrequired]; rfl
  have hcomplete := hbuilt.taskComplete
  rw [StorageEnvelope.new, StorageEnvelope.decode]
  rw [hreq, ← hcomplete]

end Submitted

end AtmCore
