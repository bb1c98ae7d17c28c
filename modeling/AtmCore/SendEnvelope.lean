import AtmCore.WriteRequest

/-! The envelope of a send. It is built once from the resolved request, and every later comparison of two sends of one
id compares envelopes as JSON values: an object has its members in no order. -/

namespace AtmCore

mutual

/-- A JSON value with the members of its objects in the order of their names. -/
def Value.canonical : Value → Value
  | .array items => .array (canonicalItems items)
  | .object members => .object ((canonicalMembers members).insertionSort (fun a b => a.1 ≤ b.1))
  | value => value

def canonicalItems : List Value → List Value
  | [] => []
  | item :: items => item.canonical :: canonicalItems items

def canonicalMembers : List (String × Value) → List (String × Value)
  | [] => []
  | (name, value) :: members => (name, value.canonical) :: canonicalMembers members

end

mutual

/-- Equality of two values in the order they stand. -/
def Value.beq : Value → Value → Bool
  | .null, .null => true
  | .bool a, .bool b => a == b
  | .posInt a, .posInt b => a == b
  | .negInt a, .negInt b => a == b
  | .float a, .float b => a == b
  | .string a, .string b => a == b
  | .array a, .array b => beqItems a b
  | .object a, .object b => beqMembers a b
  | _, _ => false

def beqItems : List Value → List Value → Bool
  | [], [] => true
  | a :: as, b :: bs => a.beq b && beqItems as bs
  | _, _ => false

def beqMembers : List (String × Value) → List (String × Value) → Bool
  | [], [] => true
  | (name, a) :: as, (name', b) :: bs => name == name' && a.beq b && beqMembers as bs
  | _, _ => false

end

/-- `PartialEq` of two maps of members. -/
def sameMembers (left right : List (String × Value)) : Bool :=
  (Value.object left).canonical.beq (Value.object right).canonical

def MessageEnvelope.same (left right : MessageEnvelope) : Bool :=
  decide (left.from = right.from) && decide (left.sourceChatId = right.sourceChatId) &&
  decide (left.text = right.text) && decide (left.timestamp = right.timestamp) && decide (left.read = right.read) &&
  decide (left.sourceTeam = right.sourceTeam) && decide (left.destinationChatId = right.destinationChatId) &&
  decide (left.summary = right.summary) && decide (left.messageId = right.messageId) &&
  decide (left.requiresAck = right.requiresAck) && decide (left.pendingAckAt = right.pendingAckAt) &&
  decide (left.acknowledgedAt = right.acknowledgedAt) &&
  decide (left.acknowledgesMessageId = right.acknowledgesMessageId) &&
  decide (left.parentMessageId = right.parentMessageId) && decide (left.threadMode = right.threadMode) &&
  decide (left.expiresAt = right.expiresAt) && decide (left.taskId = right.taskId) &&
  decide (left.placement = right.placement) && decide (left.taskOp = right.taskOp) &&
  decide (left.taskComplete = right.taskComplete) && sameMembers left.extra right.extra

/-- Where a send goes and whom it comes from, after the roster has resolved both. -/
structure SendExecutionContext where
  recipient : MailboxScope
  canonicalSender : AgentName
  canonicalSenderTeam : TeamName
  canonicalSenderChatId : Option ChatId

def eqIgnoreAsciiCase (left right : String) : Bool :=
  decide (left.toList.map Char.toLower = right.toList.map Char.toLower)

def isSameMember (sender : AgentName) (senderTeam : TeamName) (recipient : MailboxScope) : Bool :=
  eqIgnoreAsciiCase sender.val recipient.agent.val && eqIgnoreAsciiCase senderTeam.val recipient.team.val

def isTaskWrite (request : WriteRequest) : Bool :=
  (request.taskId.isSome || request.taskComplete.isSome) && request.acknowledgesMessageId.isNone

def taskOpNormalized (request : WriteRequest) : Except AtmError (Option TaskId × Option TaskOp) :=
  match request.taskOp, request.taskComplete with
  | some op, _ => .ok (request.taskId, some op)
  | none, some legacy =>
    if request.taskId.any (fun id => decide (id ≠ legacy)) then
      .error (.validationWithRecovery "task_id and task_complete name different tasks"
        "pass one task: `--task-id <id> --task-complete`, or the legacy `--task-complete <id>` alone")
    else .ok (some legacy, some (.close .completed none))
  | none, none => .ok (request.taskId, none)

def AgentAddress.text (address : AgentAddress) : String :=
  let identity := address.agent.val ++ (address.chatId.elim "" (fun chatId => ":" ++ chatId.val))
  identity ++ (address.team.elim "" (fun team => "@" ++ team.val)) ++
    (address.host.elim "" (fun host => "." ++ host.val))

/-- `validate_task_request`: the request with its task operation normalised. -/
def validateTaskRequest (request : WriteRequest) : Except AtmError WriteRequest := do
  let (taskId, taskOp) ← taskOpNormalized request
  if taskOp.isSome && taskId.isNone then .error (.validation "task_op requires task_id")
  else
    match request.destination.filter (fun target => (taskId.isSome || taskOp.isSome) &&
        (target.host.isSome || target.team.any (fun team => decide (team ≠ request.callerTeam)))) with
    | some target =>
      .error (.validation s!"task commands are local-team only; {target.text} resolves to another team or host — send a plain message or assign the local alias")
    | none => .ok { request with taskId := taskId, taskOp := taskOp, taskComplete := none }

def requestHasClassification (classification : MessageClassification) : Bool :=
  classification.category.isSome || !classification.tags.isEmpty || classification.contentFormat.isSome

def insertClassificationMetadata (extra : List (String × Value)) (classification : MessageClassification) :
    List (String × Value) :=
  if requestHasClassification classification then
    let extra := Value.insert extra "category" (classification.category.elim .null .string)
    let extra := Value.insert extra "tags" (.array (classification.tags.map .string))
    Value.insert extra "content_format" (classification.contentFormat.elim .null .string)
  else extra

/-- What the pipeline has fixed of a send when it builds the envelope. -/
structure SendIdentity where
  body : String
  summary : String
  messageId : AtmMessageId
  timestamp : IsoTimestamp

def buildSendEnvelope (request : WriteRequest) (context : SendExecutionContext) (identity : SendIdentity) :
    MessageEnvelope where
  «from» := context.canonicalSender
  sourceChatId := context.canonicalSenderChatId
  text := identity.body
  timestamp := identity.timestamp
  -- a member's task addressed to itself is born read
  read := isTaskWrite request && isSameMember context.canonicalSender request.callerTeam context.recipient
  sourceTeam := some context.canonicalSenderTeam
  destinationChatId := request.destination.bind AgentAddress.chatId
  summary := some identity.summary
  messageId := some identity.messageId
  requiresAck := request.requiresAck
  pendingAckAt := if request.requiresAck then some identity.timestamp else none
  acknowledgedAt := none
  acknowledgesMessageId := request.acknowledgesMessageId
  parentMessageId := request.parentMessageId
  threadMode := request.threadMode
  expiresAt := request.expiresAt
  taskId := request.taskId
  placement := request.placement
  taskOp := request.taskOp
  taskComplete := request.taskComplete
  extra := setDaemonEscalationProvenance
    (setAuthenticatedSourceHost (insertClassificationMetadata [] request.classification)
      request.authenticatedSourceHost)
    request.daemonEscalationProvenance

/-- The envelope of a send to a peer names the peer. -/
def addressedEnvelope (request : WriteRequest) (envelope : MessageEnvelope) : MessageEnvelope :=
  match request.destination.bind (directPeerDestination request) with
  | some host => { envelope with extra := setPeerDeliveryTarget envelope.extra host }
  | none => envelope

end AtmCore
