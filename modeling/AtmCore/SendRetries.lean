import AtmCore.MailRuns
import AtmCore.Redelivery
import AtmCore.ThreadSends

/-! Sending a message again. The writer answers an admission of a stored key with the record it retains, under the state
that it has just written from the request, and the sender compares the two. The retained envelope is the one that was
stored, since no later operation changes it, unless the admission itself dropped the task link of a report. -/

namespace AtmCore

open Fallible

/-- The mailbox as the thread check of an ordinary send reads it. -/
def SendInput.inbox (load : Except AtmError (List MessageEnvelope)) (input : SendInput) :
    Except AtmError (List MessageEnvelope) :=
  if input.envelope.parentMessageId.isSome && input.envelope.threadMode.isSome then load else .ok []

/-- What a send hands to the writer. -/
inductive Submission where
  | plain (record : Message) (provenance : MessageWriteOrigin)
  | template (admission : TemplateMessageAdmission)

def Submission.op : Submission → WriteOp
  | plain record provenance => .upsertMessage record provenance
  | template admission => .admitTemplateMessage admission

def Submission.record : Submission → Message
  | plain record _ => record
  | template admission => admission.record

def Submission.provenance : Submission → MessageWriteOrigin
  | plain _ provenance => provenance
  | template admission => admission.provenance

/-- An ordinary send, after the checks that come before the writer. -/
def SendInput.submitsPlain (world : World) (load : Except AtmError (List MessageEnvelope))
    (provenance : MessageWriteOrigin) (input : SendInput) : Except AtmError Submission := do
  let inbox ← input.inbox load
  let prepared ← prepareThreadedMessage input.envelope inbox
  let record := recordOf input.context.recipient input.identity.messageId prepared
  validateUpsertMessageRequest world record
  return .plain record provenance

def SendInput.submitsAsync (world : World) (port : RenderPort) (verifiedTemplate : Option VerifiedTemplateSend)
    (cronRunFence : Option (Nat × CronGeneration)) (seen : Db) (input : SendInput) : Except AtmError Submission :=
  match admittedTemplate input verifiedTemplate with
  | some verified =>
    (buildTemplateAdmission world input input.envelope verified cronRunFence).map Submission.template
  | none =>
    input.submitsPlain world (loadProjectionAsync port input.now input.context.recipient seen)
      (asyncWriteOrigin input.request cronRunFence)

/-- A send, after the checks that come before the writer. -/
def Send.submits (world : World) (port : RenderPort) (send : Send) (seen : Db) : Except AtmError Submission := do
  let request ← validateTaskRequest send.input.request
  let input := { send.input with request := request }
  match send.path with
  | .sync =>
    if request.messageSource = .template then
      .error (.validation "templated sends must be resolved through the template-aware async admission path")
    else
      input.submitsPlain world (loadProjection port input.now input.context.recipient seen)
        (if hasAuthenticatedPeerProvenance input.request then .peer else .local)
  | .async verifiedTemplate cronRunFence =>
    if verifiedTemplate.isSome = decide (request.messageSource = .template) then
      input.submitsAsync world port verifiedTemplate cronRunFence seen
    else .error (.validation "write source preflight does not match the request source")

variable {cronRunFence : Option (Nat × CronGeneration)} {port : RenderPort} {seen : Db} {world : World}
  {envelope : MessageEnvelope} {verified : VerifiedTemplateSend}

section Plain

variable {world : World} {load : Except AtmError (List MessageEnvelope)} {provenance : MessageWriteOrigin}
  {input : SendInput} {db : Db}

theorem prepareThreadedMessage_messageId {prepared : MessageEnvelope} {inbox : List MessageEnvelope}
    (h : prepareThreadedMessage envelope inbox = .ok prepared) : prepared.messageId = envelope.messageId := by
  rcases prepareThreadedMessage_eq_ok h with ⟨-, rfl⟩ | ⟨parentId, -, happ⟩
  · rfl
  · rw [happ.prepared]

/-- What the sender makes of the answer of the writer. -/
def Submission.answer (submission : Submission) (input : SendInput) (reply : Reply) :
    Except AtmError DeliveryPersistenceResult :=
  match submission with
  | .plain record _ =>
    (reply.map (admissionFrom WriteOpResult.asUpsert "sqlite writer reported a duplicate without its retained record"
      "sqlite writer returned the wrong result for message upsert")).bind
      (persistedResult record.envelope input.context.recipient input.identity.messageId input.peerReceipt)
  | .template admission =>
    (reply.map (admissionFrom WriteOpResult.asTemplate
      "sqlite writer reported a duplicate template admission without its retained record"
      "sqlite writer returned the wrong result for template message admission")).bind (fun committed =>
        match committed.operation with
        | .error error =>
          .ok ((DeliveryPersistenceResult.new .notDuplicate admission.record.envelope).withCommittedTaskWrite
            (.error error) committed.taskEvents)
        | .ok outcome =>
          match outcome.existing with
          | some existing =>
            if existing.envelope.same admission.record.envelope then
              .ok (.new .alreadyDeliveredRemote admission.record.envelope)
            else
              .error (.messageIdConflict
                s!"message {input.identity.messageId.toText} already exists with different immutable data")
          | none =>
            .ok (({ DeliveryPersistenceResult.new .notDuplicate admission.record.envelope with
              taskAssignee := outcome.taskAssignee
              queuedPosition := outcome.queuedPosition
              reassignNotice := outcome.reassignNotice }.withTaskRejection
                outcome.taskRejection).withCommittedTaskWrite (.ok ()) outcome.taskEvents))

/-- A send that comes through to the writer is what it hands over and what it makes of the answer. -/
def Answered (world : World) (input : SendInput) (submission : Except AtmError Submission) (db : Db) :
    Except AtmError DeliveryPersistenceResult × Db :=
  match submission with
  | .error error => (.error error, db)
  | .ok submission =>
    let (reply, written) := processQueuedWrite world ⟨submission.op, input.ambient⟩ db
    (submission.answer input reply, written)

theorem persistMessage_answered :
    persistMessage world input.ambient load input.context.recipient input.envelope input.peerReceipt provenance db =
      Answered world input (input.submitsPlain world load provenance) db := by
  simp only [persistMessage, SendInput.submitsPlain, SendInput.inbox]
  generalize (if input.envelope.parentMessageId.isSome && input.envelope.threadMode.isSome then load else .ok []) =
    inbox
  cases inbox with
  | error error => rfl
  | ok inbox =>
    rw [Except.bind, bind_ok]
    cases hprep : prepareThreadedMessage input.envelope inbox with
    | error error => rfl
    | ok prepared =>
      obtain ⟨extra, henv⟩ := input.envelope_eq
      have hid : prepared.messageId = some input.identity.messageId := by
        rw [prepareThreadedMessage_messageId hprep, henv]
        rfl
      dsimp only
      rw [mirrorMessageToStore, hid, bind_ok]
      dsimp only
      rw [submitMessageAdmission]
      cases validateUpsertMessageRequest world
          (recordOf input.context.recipient input.identity.messageId prepared) with
      | error | ok => rfl

theorem buildTemplateAdmission_eq_ok {admission : TemplateMessageAdmission}
    (h : buildTemplateAdmission world input envelope verified cronRunFence = .ok admission) :
    admission.validate world = .ok () ∧
      admission.record = recordOf input.context.recipient input.identity.messageId envelope ∧
      admission.provenance = asyncWriteOrigin input.request cronRunFence := by
  rw [buildTemplateAdmission] at h
  obtain ⟨parts, -, h⟩ := bind_eq_ok.mp h
  obtain ⟨⟨⟩, hval, h⟩ := bind_eq_ok.mp h
  cases h
  exact ⟨hval, rfl, rfl⟩

theorem admitVerifiedTemplate_answered : admitVerifiedTemplate world input input.envelope verified cronRunFence db =
      Answered world input ((buildTemplateAdmission world input input.envelope verified cronRunFence).map
        Submission.template) db := by
  rw [admitVerifiedTemplate]
  cases hbuild : buildTemplateAdmission world input input.envelope verified cronRunFence with
  | error error => rfl
  | ok admission =>
    obtain ⟨hval, hrec, -⟩ := buildTemplateAdmission_eq_ok hbuild
    dsimp only
    rw [submitTemplateMessageAdmission, hval]
    have henv : admission.record.envelope = input.envelope := by rw [hrec]; rfl
    rw [← henv]
    rfl

end Plain

/-- A send that is no dry run is what it hands to the writer and what it makes of the answer. -/
theorem Send.persist_answered (send : Send) {db : Db} (hdry : send.input.request.dryRun = false) :
    send.persist world port seen db = Answered world send.input (send.submits world port seen) db := by
  obtain ⟨path, input⟩ := send
  rw [Send.persist, Send.submits]
  cases hreq : validateTaskRequest input.request with
  | error error => rfl
  | ok request =>
    obtain ⟨taskId, taskOp, rfl⟩ := validateTaskRequest_eq_ok hreq
    rw [bind_ok]
    cases path with
    | sync =>
      dsimp only
      split
      · rfl
      · rw [persistSendMessage, if_neg (by rw [hdry]; decide)]
        exact persistMessage_answered
    | async verifiedTemplate cronRunFence =>
      dsimp only
      split
      · rw [persistSendMessageAsync, if_neg (by rw [hdry]; decide), SendInput.submitsAsync]
        generalize admittedTemplate _ verifiedTemplate = admitted
        cases admitted with
        | none => exact persistMessage_answered
        | some verified => exact admitVerifiedTemplate_answered
      · rfl

/-- The record a send hands to the writer is built, so it has no other pending acknowledgement than the one it
requires, and no task of the legacy form. -/
structure Message.Built (record : Message) : Prop where
  pending : record.envelope.pendingAckAt.isSome = record.envelope.requiresAck
  taskComplete : record.envelope.taskComplete = none
  target : ∃ host, peerDeliveryTarget record.envelope = .ok host

theorem lookup_insertClassificationMetadata {extra : List (String × Value)} {classification : MessageClassification} :
    Value.lookup (insertClassificationMetadata extra classification) peerOutboundKey =
      Value.lookup extra peerOutboundKey := by
  rw [insertClassificationMetadata]
  split
  · rw [Value.lookup_insert_of_ne (by decide), Value.lookup_insert_of_ne (by decide),
      Value.lookup_insert_of_ne (by decide)]
  · rfl

theorem lookup_buildSendEnvelope {request : WriteRequest} {context : SendExecutionContext} {identity : SendIdentity} :
    Value.lookup (buildSendEnvelope request context identity).extra peerOutboundKey = none := by
  have hsrc : ∀ extra, Value.lookup (setAuthenticatedSourceHost extra request.authenticatedSourceHost)
      peerOutboundKey = Value.lookup extra peerOutboundKey := by
    intro extra
    cases request.authenticatedSourceHost with
    | some host => exact Value.lookup_insert_of_ne (by decide)
    | none => exact Value.lookup_remove_of_ne (by decide)
  have hescalation : ∀ extra, Value.lookup (setDaemonEscalationProvenance extra request.daemonEscalationProvenance)
      peerOutboundKey = Value.lookup extra peerOutboundKey := by
    intro extra
    rw [setDaemonEscalationProvenance]
    split
    · exact Value.lookup_insert_of_ne (by decide)
    · exact Value.lookup_remove_of_ne (by decide)
  rw [buildSendEnvelope, hescalation, hsrc, lookup_insertClassificationMetadata]
  rfl

theorem SendInput.peerDeliveryTarget_envelope (input : SendInput) :
    peerDeliveryTarget input.envelope = .ok (input.request.destination.bind (directPeerDestination input.request)) := by
  rw [SendInput.envelope, addressedEnvelope]
  cases input.request.destination.bind (directPeerDestination input.request) with
  | none =>
    rw [peerDeliveryTarget, lookup_buildSendEnvelope]
  | some host =>
    dsimp only
    rw [peerDeliveryTarget, setPeerDeliveryTarget, Value.lookup_insert_self]
    show persistedHost (some host.val) _ _ = _
    rw [persistedHost, HostName.parse_val]

theorem SendInput.envelope_built (input : SendInput) (hcomplete : input.request.taskComplete = none) :
    (recordOf input.context.recipient input.identity.messageId input.envelope).Built := by
  obtain ⟨extra, henv⟩ := input.envelope_eq
  refine ⟨?_, ?_, _, input.peerDeliveryTarget_envelope⟩
  · rw [recordOf, henv, buildSendEnvelope]
    cases input.request.requiresAck <;> rfl
  · rw [recordOf, henv]
    exact hcomplete

variable {submission : Submission}

theorem SendInput.submitsPlain_built {load : Except AtmError (List MessageEnvelope)}
    {provenance : MessageWriteOrigin} {input : SendInput} (hcomplete : input.request.taskComplete = none)
    (h : input.submitsPlain world load provenance = .ok submission) : submission.record.Built := by
  rw [SendInput.submitsPlain] at h
  obtain ⟨inbox, -, h⟩ := bind_eq_ok.mp h
  obtain ⟨prepared, hprep, h⟩ := bind_eq_ok.mp h
  obtain ⟨⟨⟩, -, h⟩ := bind_eq_ok.mp h
  cases h
  have hbuilt := input.envelope_built hcomplete
  rcases prepareThreadedMessage_eq_ok hprep with ⟨-, rfl⟩ | ⟨parentId, -, happ⟩
  · exact hbuilt
  · rw [happ.prepared]
    refine ⟨?_, hbuilt.taskComplete, hbuilt.target⟩
    cases (⟨inbox⟩ : ThreadIndex).threadRequiresAck parentId <;> rfl

theorem Send.submits_built {send : Send}
    (h : send.submits world port seen = .ok submission) : submission.record.Built := by
  obtain ⟨path, input⟩ := send
  rw [Send.submits] at h
  obtain ⟨request, hreq, h⟩ := bind_eq_ok.mp h
  obtain ⟨taskId, taskOp, rfl⟩ := validateTaskRequest_eq_ok hreq
  cases path with
  | sync =>
    dsimp only at h
    split at h
    · cases h
    · exact SendInput.submitsPlain_built rfl h
  | async verifiedTemplate cronRunFence =>
    dsimp only at h
    split at h
    · rw [SendInput.submitsAsync] at h
      split at h
      · next verified _ =>
        cases hbuild : buildTemplateAdmission world _ _ verified cronRunFence with
        | error error => rw [hbuild] at h; cases h
        | ok admission =>
          rw [hbuild] at h
          cases h
          show admission.record.Built
          rw [(buildTemplateAdmission_eq_ok hbuild).2.1]
          exact SendInput.envelope_built _ rfl
      · exact SendInput.submitsPlain_built rfl h
    · cases h

end AtmCore
