import AtmCore.SendPipeline
import AtmCore.ThreadStore

/-! Sends and threads. The thread check reads the mailbox before the writer runs, so it may see an earlier state of it.
What it accepts still continues the parent it names, since stored messages keep their places. -/

namespace AtmCore

open Rows Fallible List Option ThreadIndex

variable {world : World} {port : RenderPort} {mailbox : MailboxScope} {seen db : Db}

theorem validateTaskRequest_eq_ok {request normalized : WriteRequest}
    (h : validateTaskRequest request = .ok normalized) :
    ∃ taskId taskOp, normalized = { request with taskId := taskId, taskOp := taskOp, taskComplete := none } := by
  obtain ⟨⟨taskId, taskOp⟩, -, h⟩ := bind_eq_ok.mp h
  dsimp only at h
  split at h
  · cases h
  · split at h
    · cases h
    · exact ⟨taskId, taskOp, (Except.ok.inj h).symm⟩

theorem SendInput.envelope_eq (input : SendInput) :
    ∃ extra, input.envelope = { buildSendEnvelope input.request input.context input.identity with extra := extra } := by
  rw [SendInput.envelope, addressedEnvelope]
  split
  · exact ⟨_, rfl⟩
  · exact ⟨_, rfl⟩

/-- What the thread check asks of a message that names a parent, and what it makes of it. -/
structure AppendsTo (inbox : List MessageEnvelope) (envelope prepared : MessageEnvelope) (parentId : AtmMessageId) :
    Prop where
  named : envelope.parentMessageId = some parentId
  lasting : envelope.expiresAt = none
  parent : ∃ parent, (⟨inbox⟩ : ThreadIndex).message parentId = some parent ∧ parent.expiresAt = none
  root : ∃ rootId root, (⟨inbox⟩ : ThreadIndex).rootId parentId = some rootId ∧
    (⟨inbox⟩ : ThreadIndex).message rootId = some root ∧ root.from = envelope.from
  single : (⟨inbox⟩ : ThreadIndex).hasSuccessor parentId = false
  prepared : prepared = { envelope with
    requiresAck := (⟨inbox⟩ : ThreadIndex).threadRequiresAck parentId
    pendingAckAt := if (⟨inbox⟩ : ThreadIndex).threadRequiresAck parentId then some envelope.timestamp else none
    acknowledgedAt := none }

variable {envelope prepared : MessageEnvelope} {inbox : List MessageEnvelope} {now : IsoTimestamp}
  {parentId : AtmMessageId}

theorem validateThreadAppend_eq_ok (hname : envelope.parentMessageId = some parentId)
    (hlast : envelope.expiresAt = none) (h : validateThreadAppend envelope inbox parentId = .ok prepared) :
    AppendsTo inbox envelope prepared parentId := by
  unfold validateThreadAppend at h
  dsimp only at h
  split at h
  · cases h
  next parent hpar =>
  split at h
  · cases h
  next hlastPar =>
  split at h
  · cases h
  next rootId hrootId =>
  split at h
  · cases h
  next root hroot =>
  split at h
  · cases h
  next hsend =>
  split at h
  · cases h
  next hsingle =>
  rw [isEphemeral, isSome_iff_ne_none, not_not] at hlastPar
  exact ⟨hname, hlast, ⟨parent, hpar, hlastPar⟩, ⟨rootId, root, hrootId, hroot, not_not.mp hsend⟩,
    Bool.eq_false_iff.mpr hsingle, (Except.ok.inj h).symm⟩

theorem prepareThreadedMessage_eq_ok (h : prepareThreadedMessage envelope inbox = .ok prepared) :
    (envelope.parentMessageId = none ∧ prepared = envelope) ∨
      ∃ parentId, envelope.threadMode.isSome = true ∧ AppendsTo inbox envelope prepared parentId := by
  unfold prepareThreadedMessage at h
  split at h
  · next hpar hmode => exact .inl ⟨hpar, (Except.ok.inj h).symm⟩
  · cases h
  · next parentId mode hpar hmode hlast =>
    exact .inr ⟨parentId, by rw [hmode]; rfl, validateThreadAppend_eq_ok hpar hlast h⟩
  · cases h

theorem renderMessageBody_place {key : MessageKey} {shown : MessageEnvelope}
    (h : renderMessageBody port key envelope db = .ok shown) : SamePlace shown envelope := by
  unfold renderMessageBody at h
  split at h
  · dsimp only at h
    split at h
    · cases h
      exact ⟨rfl, rfl, rfl, rfl, rfl⟩
    · split at h
      · cases h
      · obtain ⟨text, -, h⟩ := bind_eq_ok.mp h
        cases h
        exact ⟨rfl, rfl, rfl, rfl, rfl⟩
  · cases h
    exact ⟨rfl, rfl, rfl, rfl, rfl⟩

variable {record : Message}

theorem mem_listMessages {query : MessageQuery} (h : record ∈ listMessages now query db) :
    ∃ row ∈ db.mailMessages.rows, row.within query.mailbox = true ∧ record = db.messageOf row := by
  rw [listMessages, List.mem_map] at h
  obtain ⟨row, hrow, rfl⟩ := h
  have hsort : row ∈ ((liveRows now query.mailbox db).filter (fun row =>
      query.sender.all (fun sender => decide (row.fromAgent = sender)) &&
        query.taskId.all (fun taskId => decide (row.envelopeJson.taskId = some taskId)))).mergeSort newestFirst := by
    cases hlimit : query.limit with
    | none =>
      rw [hlimit] at hrow
      exact hrow
    | some n =>
      rw [hlimit] at hrow
      exact mem_of_mem_take hrow
  have hlive := mem_of_mem_filter (mem_mergeSort.mp hsort)
  obtain ⟨hmem, hwith⟩ := mem_filter.mp hlive
  exact ⟨row, hmem, (Bool.and_eq_true_iff.mp hwith).1, rfl⟩

theorem loadProjectionAsync_shows (h : loadProjectionAsync port now mailbox db = .ok inbox) :
    Shows inbox (db.storedIn mailbox) := by
  intro shown hshown
  obtain ⟨record, hrec, hrender⟩ := exists_of_mem_mapM h hshown
  obtain ⟨row, hmem, hwith, rfl⟩ := mem_listMessages (mem_mergeSort.mp hrec)
  exact ⟨_, mem_storedIn.mpr ⟨row, hmem, hwith, rfl⟩, renderMessageBody_place hrender⟩

/-- What the synchronous path reads of a mailbox is stored there. -/
theorem loadProjection_shows (h : loadProjection port now mailbox db = .ok inbox) :
    Shows inbox (db.storedIn mailbox) := by
  intro shown hshown
  obtain ⟨record, hrec, hrender⟩ := exists_of_mem_mapM h hshown
  obtain ⟨listed, -, hload⟩ := mem_filterMap.mp hrec
  rw [loadMessageRecord, loadMessage] at hload
  obtain ⟨hload, hbox⟩ := filter_eq_some_iff.mp hload
  obtain ⟨row, hf, rfl⟩ := map_eq_some_iff.mp hload
  exact ⟨_, mem_storedIn.mpr ⟨row, mem_of_find?_eq_some hf, hbox, rfl⟩, renderMessageBody_place hrender⟩

theorem requiresAck_readBack {messageId : AtmMessageId} {linked : Bool} :
    ((recordOf mailbox messageId envelope).readBack linked).requiresAck =
      (envelope.pendingAckAt.isSome && envelope.acknowledgesMessageId.isNone) := by
  cases linked <;> rfl

/-- What the thread check accepts in an earlier state of a mailbox continues its parent in the later one, unless it
acknowledges a message where the thread asks for an acknowledgement. -/
theorem AppendsTo.follows {messageId : AtmMessageId}
    (h : AppendsTo inbox envelope prepared parentId) (hthreads : MailThreads (seen.storedIn mailbox))
    (hshows : Shows inbox (seen.storedIn mailbox)) (hgrown : Grown Lasts (seen.storedIn mailbox) (db.storedIn mailbox))
    (hack : ∀ parent ∈ db.storedIn mailbox, parent.messageId = some parentId → parent.requiresAck = true →
      envelope.acknowledgesMessageId = none) (linked : Bool) :
    Follows (db.storedIn mailbox) ((recordOf mailbox messageId prepared).readBack linked) := by
  obtain ⟨parent, hpar, hlastPar⟩ := h.parent
  obtain ⟨rootId, root, hrootId, hroot, hsend⟩ := h.root
  obtain ⟨earlier, hearlier, hid, hplace⟩ := exists_stored hshows hpar
  obtain ⟨stored, hst, hlasts⟩ := hgrown.exists_of_mem hearlier
  have hchain := mem_chainMessages hthreads hshows hpar hrootId
  have hroots := rootId_sender hthreads hshows hpar hrootId hroot
  have hstoredId : stored.messageId = some parentId := hlasts.messageId.trans hid
  intro other hother
  have hname : ((recordOf mailbox messageId prepared).readBack linked).parentMessageId = some parentId := by
    rw [h.prepared]
    cases linked <;> exact h.named
  obtain rfl := some.inj (hname.symm.trans hother)
  refine ⟨stored, hst, hstoredId, ?_, hlasts.lasting (hplace.expiresAt.symm.trans hlastPar), ?_, fun hreq => ?_⟩
  · rw [hlasts.sender, ← hplace.sender, ← hroots, hsend, h.prepared]
    cases linked <;> rfl
  · rw [h.prepared]
    cases linked <;> exact h.lasting
  · have hthread : (⟨inbox⟩ : ThreadIndex).threadRequiresAck parentId = true := by
      rw [ThreadIndex.threadRequiresAck, List.any_eq_true]
      exact ⟨parent, hchain, by rw [hplace.requiresAck, ← hlasts.requiresAck, hreq]⟩
    have hanswers := hack stored hst hstoredId hreq
    rw [requiresAck_readBack, h.prepared]
    simp [hthread, hanswers]

variable {ambient : Ambient} {provenance : MessageWriteOrigin}

section Pipeline

variable {guard : MailGuard}

theorem submitMessageAdmission_path (hbeside : guard.Beside) (hmeets : record.Meets guard db) :
    MailPath world guard db (submitMessageAdmission world ambient record provenance db).2 := by
  unfold submitMessageAdmission
  split
  · exact .refl db
  · refine processQueuedWrite_path_of_returns ?_
    exact (upsertMessage_path hbeside hmeets).bind (fun _ h => h)

theorem submitTemplateMessageAdmission_path (hbeside : guard.Beside)
    {admission : TemplateMessageAdmission} (hmeets : admission.record.Meets guard db) :
    MailPath world guard db (submitTemplateMessageAdmission world ambient admission db).2 := by
  unfold submitTemplateMessageAdmission
  split
  · exact .refl db
  · refine processQueuedWrite_path_of_returns ?_
    exact (executeAdmitTemplateMessage_path hbeside hmeets).bind (fun _ h => h)

/-- An ordinary send stores what the thread check leaves of its message. -/
theorem persistMessage_path (hbeside : guard.Beside)
    {load : Except AtmError (List MessageEnvelope)} {receipt : Option (HostName × HostName)}
    (hmeets : ∀ prepared messageId, prepared.messageId = some messageId →
      (envelope.parentMessageId = none ∧ prepared = envelope ∨
        ∃ inbox parentId, load = .ok inbox ∧ AppendsTo inbox envelope prepared parentId) →
      (recordOf mailbox messageId prepared).Meets guard db) :
    MailPath world guard db (persistMessage world ambient load mailbox envelope receipt provenance db).2 := by
  unfold persistMessage
  dsimp only
  split
  · exact .refl db
  · next prepared hprep =>
    rw [mirrorMessageToStore]
    split
    · exact .refl db
    · next messageId hid =>
      refine submitMessageAdmission_path hbeside (hmeets prepared messageId hid ?_)
      obtain ⟨inbox, hinbox, hprepare⟩ := bind_eq_ok.mp hprep
      rcases prepareThreadedMessage_eq_ok hprepare with hroot | ⟨parentId, hmode, happ⟩
      · exact .inl hroot
      · rw [happ.named, hmode] at hinbox
        exact .inr ⟨inbox, parentId, hinbox, happ⟩

theorem admitVerifiedTemplate_path (hbeside : guard.Beside) {input : SendInput}
    {verified : VerifiedTemplateSend} {cronRunFence : Option (Nat × CronGeneration)}
    (hmeets : (recordOf input.context.recipient input.identity.messageId envelope).Meets guard db) :
    MailPath world guard db (admitVerifiedTemplate world input envelope verified cronRunFence db).2 := by
  unfold admitVerifiedTemplate
  split
  · exact .refl db
  · next admission hadmits =>
    rw [buildTemplateAdmission] at hadmits
    obtain ⟨parts, -, hadmits⟩ := bind_eq_ok.mp hadmits
    obtain ⟨⟨⟩, -, hadmits⟩ := bind_eq_ok.mp hadmits
    cases hadmits
    exact submitTemplateMessageAdmission_path hbeside hmeets

end Pipeline

end AtmCore
