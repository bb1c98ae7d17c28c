import AtmCore.SendThreads
import AtmCore.WriterBatch

/-! The send pipeline, from the resolved request to the durable admission. An ordinary send checks the thread of its
message against the mailbox of the recipient, which it reads before the writer runs. A send of a template that stays
on this host and in this team has no thread check. A record whose key is stored is compared with the stored one. -/

namespace AtmCore

inductive DuplicateWriteDisposition where
  | notDuplicate
  | alreadyDeliveredRemote
  | sameStorePeerReceipt
  deriving DecidableEq

structure DeliveryPersistenceResult where
  duplicateDisposition : DuplicateWriteDisposition
  newlyPersisted : Bool
  originalMessage : MessageEnvelope
  alreadyClosed : Option TaskCloseOutcome
  taskAssignee : Option AgentName
  queuedPosition : Option Nat
  reassignNotice : Option Message
  taskRejection : Option AtmError
  operation : Except AtmError Unit
  taskEvents : List TaskEventRow

namespace DeliveryPersistenceResult

/-- `persisted`, `already_persisted` and `same_store_peer_receipt`. -/
def new (duplicate : DuplicateWriteDisposition) (message : MessageEnvelope) : DeliveryPersistenceResult where
  duplicateDisposition := duplicate
  newlyPersisted := decide (duplicate = .notDuplicate)
  originalMessage := message
  alreadyClosed := none
  taskAssignee := none
  queuedPosition := none
  reassignNotice := none
  taskRejection := none
  operation := .ok ()
  taskEvents := []

/-- A report that was kept without its task is shown to the later steps as plain mail. -/
def withTaskRejection (result : DeliveryPersistenceResult) (rejection : Option AtmError) : DeliveryPersistenceResult :=
  match rejection with
  | none => { result with taskRejection := none }
  | some error =>
    { result with
      originalMessage := { result.originalMessage with
        taskId := none
        taskOp := none
        taskComplete := none
        placement := none }
      taskAssignee := none
      taskRejection := some error }

def withCommittedTaskWrite (result : DeliveryPersistenceResult) (operation : Except AtmError Unit)
    (taskEvents : List TaskEventRow) : DeliveryPersistenceResult :=
  { result with
    newlyPersisted := result.newlyPersisted && operation.isOk
    operation := operation
    taskEvents := taskEvents }

end DeliveryPersistenceResult

def immutableEnvelopesMatch (left right : MessageEnvelope) : Bool :=
  let immutable := fun envelope : MessageEnvelope => { envelope with
    read := false
    pendingAckAt := none
    acknowledgedAt := none
    extra := clearTransportDeliveryMetadata envelope.extra }
  (immutable left).same (immutable right)

def classifyExistingMessage (existing : Message) (envelope : MessageEnvelope) (messageId : AtmMessageId)
    (mailbox : MailboxScope) (sameStorePeerReceipt : Option (HostName × HostName)) :
    Except AtmError DuplicateWriteDisposition :=
  if immutableEnvelopesMatch existing.envelope envelope then
    match sameStorePeerReceipt with
    | none => .ok .alreadyDeliveredRemote
    | some (_, destinationHost) => do
      if (← peerDeliveryTarget existing.envelope) = some destinationHost then return .sameStorePeerReceipt
      else return .alreadyDeliveredRemote
  else
    .error (.messageIdConflict s!"message {messageId.toText} already exists for {mailbox.agent.val}@{mailbox.team.val} with different immutable data")

/-- `validate_upsert_message_request`, before the writer is asked. -/
def validateUpsertMessageRequest (world : World) (record : Message) : Except AtmError Unit :=
  if maxEnvelopeJsonBytes < world.envelopeJsonLen (StorageEnvelope.new record.envelope) then
    .error (.validation
      s!"mail-store envelope JSON exceeded the writer lane limit of {maxEnvelopeJsonBytes} bytes")
  else .ok ()

/-- A committed write whose operation reports an admission, `WriteOpResult` apart. -/
structure CommittedAdmission where
  operation : Except AtmError UpsertResult
  taskEvents : List TaskEventRow

/-- `admission_from_upsert_result` and `admission_from_template_result`, over the result each of them expects. -/
def admissionFrom (expected : WriteOpResult → Option UpsertResult) (missing wrong : String)
    (committed : CommittedTaskWrite) : CommittedAdmission where
  operation := do
    let result ← committed.operation
    match expected result with
    | none => .error (.daemonUnavailable wrong)
    | some result =>
      if result.inserted || result.existing.isSome then .ok result else .error (.daemonUnavailable missing)
  taskEvents := committed.taskEvents

def WriteOpResult.asUpsert : WriteOpResult → Option UpsertResult
  | .upsertMessage result => some result
  | _ => none

def WriteOpResult.asTemplate : WriteOpResult → Option UpsertResult
  | .templateMessageAdmission result => some result
  | _ => none

/-- `submit_message_admission` and its asynchronous twin. -/
def submitMessageAdmission (world : World) (ambient : Ambient) (record : Message) (provenance : MessageWriteOrigin)
    (db : Db) : Except AtmError CommittedAdmission × Db :=
  match validateUpsertMessageRequest world record with
  | .error error => (.error error, db)
  | .ok () =>
    let (reply, db) := processQueuedWrite world ⟨.upsertMessage record provenance, ambient⟩ db
    (reply.map (admissionFrom WriteOpResult.asUpsert
      "sqlite writer reported a duplicate without its retained record"
      "sqlite writer returned the wrong result for message upsert"), db)

def submitTemplateMessageAdmission (world : World) (ambient : Ambient)
    (admission : TemplateMessageAdmission) (db : Db) : Except AtmError CommittedAdmission × Db :=
  match admission.validate world with
  | .error error => (.error error, db)
  | .ok () =>
    let (reply, db) := processQueuedWrite world ⟨.admitTemplateMessage admission, ambient⟩ db
    (reply.map (admissionFrom WriteOpResult.asTemplate
      "sqlite writer reported a duplicate template admission without its retained record"
      "sqlite writer returned the wrong result for template message admission"), db)

/-- What the sender is told of a prepared message, from what the store says of its record. -/
def persistedResult (prepared : MessageEnvelope) (mailbox : MailboxScope) (messageId : AtmMessageId)
    (sameStorePeerReceipt : Option (HostName × HostName)) (committed : CommittedAdmission) :
    Except AtmError DeliveryPersistenceResult :=
  match committed.operation with
  | .error error =>
    .ok ((DeliveryPersistenceResult.new .notDuplicate prepared).withCommittedTaskWrite (.error error)
      committed.taskEvents)
  | .ok admission =>
    match admission.existing with
    | some existing => do
      let duplicate ← classifyExistingMessage existing prepared messageId mailbox sameStorePeerReceipt
      return .new duplicate prepared
    | none =>
      .ok (({ DeliveryPersistenceResult.new .notDuplicate prepared with
        alreadyClosed := admission.alreadyClosed
        taskAssignee := admission.taskAssignee
        queuedPosition := admission.queuedPosition
        reassignNotice := admission.reassignNotice }.withTaskRejection admission.taskRejection).withCommittedTaskWrite
          (.ok ()) admission.taskEvents)

def recordOf (mailbox : MailboxScope) (messageId : AtmMessageId) (envelope : MessageEnvelope) : Message where
  team := mailbox.team
  agent := mailbox.agent
  messageKey := .fromAtmMessageId messageId
  envelope := envelope

/-- `mirror_message_to_store_async`, and the synchronous one without an acknowledgement source. -/
def mirrorMessageToStore (world : World) (ambient : Ambient) (mailbox : MailboxScope) (prepared : MessageEnvelope)
    (sameStorePeerReceipt : Option (HostName × HostName)) (provenance : MessageWriteOrigin) (db : Db) :
    Except AtmError DeliveryPersistenceResult × Db :=
  match prepared.messageId with
  | none => (.ok (.new .notDuplicate prepared), db)
  | some messageId =>
    let (committed, db) := submitMessageAdmission world ambient (recordOf mailbox messageId prepared) provenance db
    (committed.bind (persistedResult prepared mailbox messageId sameStorePeerReceipt), db)

/-- The body of `persist_message_with_ack_update` and `persist_message_with_async_admission`. The mailbox is read, by
the `load` of the path, only when the message has both a parent and a mode. -/
def persistMessage (world : World) (ambient : Ambient) (load : Except AtmError (List MessageEnvelope))
    (mailbox : MailboxScope) (envelope : MessageEnvelope) (sameStorePeerReceipt : Option (HostName × HostName))
    (provenance : MessageWriteOrigin) (db : Db) : Except AtmError DeliveryPersistenceResult × Db :=
  let inbox := if envelope.parentMessageId.isSome && envelope.threadMode.isSome then load else .ok []
  match inbox.bind (prepareThreadedMessage envelope) with
  | .error error => (.error error, db)
  | .ok prepared => mirrorMessageToStore world ambient mailbox prepared sameStorePeerReceipt provenance db

/-- What the verification of a template leaves for its admission: `parts` is the outcome of
`template_admission_parts`, with the type, the name, the front matter, the variables, the tags and the workflow. -/
structure TemplateParts where
  templateType : Option String
  templateName : Option String
  frontmatter : Value
  vars : List (String × Value)
  tags : List String
  workflow : Option WorkflowColumns

structure VerifiedTemplateSend where
  sha : String
  includeReferences : List String
  outputFormat : String
  contentBytes : List UInt8
  contentText : String
  parts : Except AtmError TemplateParts

/-- One send that has reached the persistence: the request, where it goes, what was fixed of its message, the clock of
its mailbox read and the readings of its write. -/
structure SendInput where
  request : WriteRequest
  context : SendExecutionContext
  identity : SendIdentity
  now : IsoTimestamp
  ambient : Ambient

namespace SendInput

variable (input : SendInput)

def envelope : MessageEnvelope :=
  addressedEnvelope input.request (buildSendEnvelope input.request input.context input.identity)

def peerReceipt : Option (HostName × HostName) := do
  let source ← input.request.authenticatedSourceHost
  let destination ← input.request.destination.bind AgentAddress.host
  return (source, destination)

end SendInput

def hasAuthenticatedPeerProvenance (request : WriteRequest) : Bool :=
  match validateWriteProvenance .canonical ⟨request.destination.bind AgentAddress.host,
      request.authenticatedSourceHost, request.originMessageId.isSome, request.originTimestamp.isSome⟩ with
  | .ok validated => validated.authenticatedPeer
  | .error _ => false

def persistSendMessage (world : World) (port : RenderPort) (input : SendInput) (seen db : Db) :
    Except AtmError DeliveryPersistenceResult × Db :=
  if input.request.dryRun then
    (.ok (.new .notDuplicate (buildSendEnvelope input.request input.context input.identity)), db)
  else
    persistMessage world input.ambient (loadProjection port input.now input.context.recipient seen)
      input.context.recipient input.envelope input.peerReceipt
      (if hasAuthenticatedPeerProvenance input.request then .peer else .local) db

def requiresPlainTemplateFallback (verified : VerifiedTemplateSend) (callerTeam recipientTeam : TeamName)
    (isDirectPeerDestination : Bool) : Bool :=
  !verified.includeReferences.isEmpty || decide (callerTeam ≠ recipientTeam) || isDirectPeerDestination

/-- The origin an asynchronous write gives the writer. -/
def asyncWriteOrigin (request : WriteRequest) (cronRunFence : Option (Nat × CronGeneration)) : MessageWriteOrigin :=
  match cronRunFence with
  | some (scheduleId, generation) => .cronRun scheduleId generation
  | none => if request.authenticatedSourceHost.isSome then .peer else .local

def buildTemplateAdmission (world : World) (input : SendInput) (envelope : MessageEnvelope)
    (verified : VerifiedTemplateSend) (cronRunFence : Option (Nat × CronGeneration)) :
    Except AtmError TemplateMessageAdmission := do
  let parts ← verified.parts
  let admission : TemplateMessageAdmission := {
    record := recordOf input.context.recipient input.identity.messageId envelope
    decomposition := {
      template := {
        sha := verified.sha
        templateType := parts.templateType
        templateName := parts.templateName
        contentBytes := verified.contentBytes
        contentText := verified.contentText
        outputFormat := verified.outputFormat
        frontmatter := parts.frontmatter
        firstSeenAt := input.identity.timestamp
        firstSeenBy := input.context.canonicalSender }
      message := {
        key := .fromAtmMessageId input.identity.messageId
        templateSha := verified.sha
        vars := parts.vars
        category := input.request.classification.category
        tags := parts.tags
        contentFormat := input.request.classification.contentFormat
        workflow := parts.workflow } }
    provenance := asyncWriteOrigin input.request cronRunFence }
  admission.validate world
  return admission

def admitVerifiedTemplate (world : World) (input : SendInput) (envelope : MessageEnvelope)
    (verified : VerifiedTemplateSend) (cronRunFence : Option (Nat × CronGeneration)) (db : Db) :
    Except AtmError DeliveryPersistenceResult × Db :=
  match buildTemplateAdmission world input envelope verified cronRunFence with
  | .error error => (.error error, db)
  | .ok admission =>
    let (committed, db) := submitTemplateMessageAdmission world input.ambient admission db
    (committed.bind (fun committed =>
      match committed.operation with
      | .error error =>
        .ok ((DeliveryPersistenceResult.new .notDuplicate envelope).withCommittedTaskWrite (.error error)
          committed.taskEvents)
      | .ok admission =>
        match admission.existing with
        | some existing =>
          if existing.envelope.same envelope then .ok (.new .alreadyDeliveredRemote envelope)
          else
            .error (.messageIdConflict
              s!"message {input.identity.messageId.toText} already exists with different immutable data")
        | none =>
          .ok (({ DeliveryPersistenceResult.new .notDuplicate envelope with
            taskAssignee := admission.taskAssignee
            queuedPosition := admission.queuedPosition
            reassignNotice := admission.reassignNotice }.withTaskRejection
              admission.taskRejection).withCommittedTaskWrite (.ok ()) admission.taskEvents)),
      db)

/-- The template that an asynchronous send admits as one, if any. -/
def admittedTemplate (input : SendInput) (verifiedTemplate : Option VerifiedTemplateSend) :
    Option VerifiedTemplateSend :=
  verifiedTemplate.filter (fun verified => !requiresPlainTemplateFallback verified input.request.callerTeam
    input.context.recipient.team (input.request.destination.bind (directPeerDestination input.request)).isSome)

def persistSendMessageAsync (world : World) (port : RenderPort) (input : SendInput)
    (verifiedTemplate : Option VerifiedTemplateSend) (cronRunFence : Option (Nat × CronGeneration)) (seen db : Db) :
    Except AtmError DeliveryPersistenceResult × Db :=
  if input.request.dryRun then
    (.ok (.new .notDuplicate (buildSendEnvelope input.request input.context input.identity)), db)
  else
    match admittedTemplate input verifiedTemplate with
    | some verified => admitVerifiedTemplate world input input.envelope verified cronRunFence db
    | none =>
      persistMessage world input.ambient (loadProjectionAsync port input.now input.context.recipient seen)
        input.context.recipient input.envelope input.peerReceipt (asyncWriteOrigin input.request cronRunFence) db

/-- The two paths of a write, the asynchronous one with the proof of its source and the permit of a cron run. -/
inductive SendPath where
  | sync
  | async (verifiedTemplate : Option VerifiedTemplateSend) (cronRunFence : Option (Nat × CronGeneration))

structure Send where
  path : SendPath
  input : SendInput

/-- `prepare_persisted_write` and `prepare_persisted_write_async` from the task checks to the persistence. The mailbox
is read in the state `seen`, the writer runs in `db`. -/
def Send.persist (world : World) (port : RenderPort) (send : Send) (seen db : Db) :
    Except AtmError DeliveryPersistenceResult × Db :=
  match validateTaskRequest send.input.request with
  | .error error => (.error error, db)
  | .ok request =>
    let input := { send.input with request := request }
    match send.path with
    | .sync =>
      if request.messageSource = .template then
        (.error (.validation
          "templated sends must be resolved through the template-aware async admission path"), db)
      else persistSendMessage world port input seen db
    | .async verifiedTemplate cronRunFence =>
      if verifiedTemplate.isSome = decide (request.messageSource = .template) then
        persistSendMessageAsync world port input verifiedTemplate cronRunFence seen db
      else (.error (.validation "write source preflight does not match the request source"), db)

end AtmCore
