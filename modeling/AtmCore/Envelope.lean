import AtmCore.TaskState

/-! Messages. The canonical envelope is stored as JSON; the storage form leaves out `requires_ack` and the legacy
`task_complete` carrier, and decoding computes the first again from the other fields. JSON text itself is outside the
model, and the map of extra members never has the name of a declared field. -/

namespace AtmCore

inductive Value where
  | null
  | bool (value : Bool)
  | posInt (value : Nat)
  | negInt (value : Int)
  | float (text : String)
  | string (value : String)
  | array (items : List Value)
  | object (members : List (String × Value))

namespace Value

def isNull : Value → Bool
  | null => true
  | _ => false

/-- The integers `as_u64` returns. -/
def asU64 : Value → Option Nat
  | posInt value => some value
  | _ => none

def asStr : Value → Option String
  | string value => some value
  | _ => none

def lookup (members : List (String × Value)) (name : String) : Option Value :=
  (members.find? (fun entry => entry.1 == name)).map Prod.snd

def get : Value → String → Option Value
  | object members, name => lookup members name
  | _, _ => none

end Value

inductive ThreadMode where
  | addDetails
  | supersede
  deriving DecidableEq

structure MessageEnvelope where
  «from» : AgentName
  sourceChatId : Option ChatId
  text : String
  timestamp : IsoTimestamp
  read : Bool
  sourceTeam : Option TeamName
  destinationChatId : Option ChatId
  summary : Option String
  messageId : Option AtmMessageId
  requiresAck : Bool
  pendingAckAt : Option IsoTimestamp
  acknowledgedAt : Option IsoTimestamp
  acknowledgesMessageId : Option AtmMessageId
  parentMessageId : Option AtmMessageId
  threadMode : Option ThreadMode
  expiresAt : Option IsoTimestamp
  taskId : Option TaskId
  placement : Option MoveTarget
  taskOp : Option TaskOp
  taskComplete : Option TaskId
  extra : List (String × Value)

/-- The stored form of an envelope. -/
structure StorageEnvelope where
  «from» : AgentName
  sourceChatId : Option ChatId
  text : String
  timestamp : IsoTimestamp
  read : Bool
  sourceTeam : Option TeamName
  destinationChatId : Option ChatId
  summary : Option String
  messageId : Option AtmMessageId
  pendingAckAt : Option IsoTimestamp
  acknowledgedAt : Option IsoTimestamp
  acknowledgesMessageId : Option AtmMessageId
  parentMessageId : Option AtmMessageId
  threadMode : Option ThreadMode
  expiresAt : Option IsoTimestamp
  taskId : Option TaskId
  placement : Option MoveTarget
  taskOp : Option TaskOp
  extra : List (String × Value)

def StorageEnvelope.new (envelope : MessageEnvelope) : StorageEnvelope where
  «from» := envelope.from
  sourceChatId := envelope.sourceChatId
  text := envelope.text
  timestamp := envelope.timestamp
  read := envelope.read
  sourceTeam := envelope.sourceTeam
  destinationChatId := envelope.destinationChatId
  summary := envelope.summary
  messageId := envelope.messageId
  pendingAckAt := envelope.pendingAckAt
  acknowledgedAt := envelope.acknowledgedAt
  acknowledgesMessageId := envelope.acknowledgesMessageId
  parentMessageId := envelope.parentMessageId
  threadMode := envelope.threadMode
  expiresAt := envelope.expiresAt
  taskId := envelope.taskId
  placement := envelope.placement
  taskOp := envelope.taskOp
  extra := envelope.extra

/-- `RawMessageEnvelope` into `MessageEnvelope`, for a stored envelope: neither `requires_ack` nor
`task_complete` is among its members. -/
def StorageEnvelope.decode (stored : StorageEnvelope) : MessageEnvelope where
  «from» := stored.from
  sourceChatId := stored.sourceChatId
  text := stored.text
  timestamp := stored.timestamp
  read := stored.read
  sourceTeam := stored.sourceTeam
  destinationChatId := stored.destinationChatId
  summary := stored.summary
  messageId := stored.messageId
  requiresAck := stored.pendingAckAt.isSome && stored.acknowledgesMessageId.isNone
  pendingAckAt := stored.pendingAckAt
  acknowledgedAt := stored.acknowledgedAt
  acknowledgesMessageId := stored.acknowledgesMessageId
  parentMessageId := stored.parentMessageId
  threadMode := stored.threadMode
  expiresAt := stored.expiresAt
  taskId := stored.taskId
  placement := stored.placement
  taskOp := stored.taskOp
  taskComplete := none
  extra := stored.extra

structure Message where
  team : TeamName
  agent : AgentName
  messageKey : MessageKey
  envelope : MessageEnvelope

abbrev MailKey := TeamName × AgentName × MessageKey

def Message.mailKey (message : Message) : MailKey :=
  (message.team, message.agent, message.messageKey)

/-- A `CronGeneration`: `NonZeroU32`. -/
structure CronGeneration where
  get : Nat
  valid : 1 ≤ get ∧ get < 2 ^ 32

instance : DecidableEq CronGeneration := fun generation other =>
  decidable_of_iff (generation.get = other.get) ⟨fun h => by cases generation; cases other; cases h; rfl, congrArg _⟩

/-- Where a write comes from. A cron run carries its permit. -/
inductive MessageWriteOrigin where
  | «local»
  | peer
  | cronRun (scheduleId : Nat) (generation : CronGeneration)
  deriving DecidableEq

def MessageWriteOrigin.isLocal : MessageWriteOrigin → Bool
  | .peer => false
  | _ => true

end AtmCore
