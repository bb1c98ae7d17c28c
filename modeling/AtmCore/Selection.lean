import AtmCore.MailboxQueries
import AtmCore.Threading

/-! The selection engine of a mailbox, which works on messages that are loaded. It classifies every message, reduces
each thread to its last message, whose text is the text of the thread, and filters what is left. A message that has a
successor is history, whatever its own state is. The engine reads the clock once for each message; here it has one
reading. -/

namespace AtmCore

inductive ReadState where
  | unread
  | read
  deriving DecidableEq

inductive AckRequirementState where
  | notRequired
  | requiredPending
  | requiredAcknowledged
  deriving DecidableEq

inductive AckState where
  | noAckRequired
  | pendingAck
  | acknowledged
  deriving DecidableEq

inductive MessageClass where
  | unread
  | pendingAck
  | acknowledged
  | read
  deriving DecidableEq

inductive DisplayBucket where
  | unread
  | pendingAck
  | history
  deriving DecidableEq

inductive ReadSelection where
  | actionable
  | unread
  | pendingAck
  | all
  deriving DecidableEq

def deriveReadState (message : MessageEnvelope) : ReadState := if message.read then .read else .unread

def deriveAckRequirement (message : MessageEnvelope) : AckRequirementState :=
  if !message.requiresAck then .notRequired
  else if message.acknowledgedAt.isSome then .requiredAcknowledged
  else .requiredPending

def deriveAckState (message : MessageEnvelope) : AckState :=
  match deriveAckRequirement message with
  | .notRequired => .noAckRequired
  | .requiredPending => .pendingAck
  | .requiredAcknowledged => .acknowledged

def classifyMessage (message : MessageEnvelope) : MessageClass :=
  match deriveReadState message, deriveAckState message with
  | .unread, .noAckRequired => .unread
  | .unread, .pendingAck => .pendingAck
  | .unread, .acknowledged => .acknowledged
  | .read, .noAckRequired => .read
  | .read, .pendingAck => .pendingAck
  | .read, .acknowledged => .acknowledged

def displayBucketForClass : MessageClass → DisplayBucket
  | .unread => .unread
  | .pendingAck => .pendingAck
  | .acknowledged | .read => .history

inductive ParticipantDirection where
  | «from»
  | «to»
  | either
  deriving DecidableEq

structure MessageParticipantFilter where
  agent : AgentName
  chatId : Option ChatId
  direction : ParticipantDirection

/-- The filters of a selection. The seen watermark that comes with them selects nothing. -/
structure MailboxSelectionRequest where
  selectionMode : ReadSelection
  messageIdFilter : Option AtmMessageId
  senderFilter : Option AgentName
  participantFilter : Option MessageParticipantFilter
  timestampFilter : Option IsoTimestamp
  taskFilter : Option TaskId
  containsFilter : Option String

structure MailboxSelectionCandidate where
  messageKey : MessageKey
  envelope : MessageEnvelope

structure ClassifiedMessage where
  sourceIndex : Nat
  messageKey : MessageKey
  bucket : DisplayBucket
  «class» : MessageClass
  envelope : MessageEnvelope

structure SelectedMailboxMessage where
  messageKey : MessageKey
  bucket : DisplayBucket
  «class» : MessageClass
  envelope : MessageEnvelope

def textContainsNeedle (text : Option String) (needle : String) : Bool :=
  needle.isEmpty || text.any (fun text => containsIgnoreAsciiCase text needle)

def matchesParticipantFilter (envelope : MessageEnvelope) (participant : Option MessageParticipantFilter) : Bool :=
  participant.all (fun participant =>
    let sourceMatches := decide (envelope.from = participant.agent) &&
      decide (envelope.sourceChatId = participant.chatId)
    let destinationMatches := decide (envelope.destinationChatId = participant.chatId)
    match participant.direction with
    | .from => sourceMatches
    | .to => destinationMatches
    | .either => sourceMatches || destinationMatches)

def applySenderFilter (messages : List ClassifiedMessage) (sender : Option AgentName) : List ClassifiedMessage :=
  messages.filter (fun message => sender.all (fun sender => decide (message.envelope.from = sender)))

def applyParticipantFilter (messages : List ClassifiedMessage) (participant : Option MessageParticipantFilter) :
    List ClassifiedMessage :=
  messages.filter (fun message => matchesParticipantFilter message.envelope participant)

def applyTimestampFilter (messages : List ClassifiedMessage) (since : Option IsoTimestamp) : List ClassifiedMessage :=
  messages.filter (fun message => since.all (fun since => decide (since.nanos ≤ message.envelope.timestamp.nanos)))

def applyTaskFilter (messages : List ClassifiedMessage) (taskId : Option TaskId) : List ClassifiedMessage :=
  messages.filter (fun message => taskId.all (fun taskId => decide (message.envelope.taskId = some taskId)))

/-- The buckets that a mode shows. -/
def ReadSelection.shows (mode : ReadSelection) (bucket : DisplayBucket) : Bool :=
  match mode with
  | .actionable => decide (bucket = .unread) || decide (bucket = .pendingAck)
  | .unread => decide (bucket = .unread)
  | .pendingAck => decide (bucket = .pendingAck)
  | .all => true

def applySelectionMode (messages : List ClassifiedMessage) (mode : ReadSelection) : List ClassifiedMessage :=
  messages.filter (fun message => mode.shows message.bucket)

def messageMatchesContains (message : ClassifiedMessage) (needle : Option String) : Bool :=
  needle.all (textContainsNeedle (some message.envelope.text))

/-- A message that has a successor shows as read. -/
def effectiveDisplayEnvelope (envelope : MessageEnvelope) (index : ThreadIndex) : MessageEnvelope :=
  if envelope.messageId.all index.isTerminal then envelope
  else { envelope with read := true, pendingAckAt := none }

/-- One candidate, in the index of all of them. -/
def classifyCandidate (index : ThreadIndex) (candidate : MailboxSelectionCandidate × Nat) : ClassifiedMessage :=
  let envelope := effectiveDisplayEnvelope candidate.1.envelope index
  { sourceIndex := candidate.2
    messageKey := candidate.1.messageKey
    bucket := displayBucketForClass (classifyMessage envelope)
    «class» := classifyMessage envelope
    envelope := envelope }

def classifyCandidates (candidates : List MailboxSelectionCandidate) : List ClassifiedMessage :=
  let index : ThreadIndex := ⟨candidates.map MailboxSelectionCandidate.envelope⟩
  candidates.zipIdx.map (classifyCandidate index)

def withLogicalEnvelope (index : ThreadIndex) (message : ClassifiedMessage) : ClassifiedMessage :=
  match message.envelope.messageId.bind index.logicalCurrentEnvelope with
  | some logical => { message with envelope := logical }
  | none => message

def logicalCurrentMessages (messages : List ClassifiedMessage) : List ClassifiedMessage :=
  let index : ThreadIndex := ⟨messages.map ClassifiedMessage.envelope⟩
  (messages.filter (fun message => message.envelope.messageId.all index.isTerminal)).map (withLogicalEnvelope index)

def hiddenFromNormalViews (now : IsoTimestamp) (envelope : MessageEnvelope) : Bool :=
  isExpiredEphemeral envelope now || (isEphemeral envelope && envelope.read)

def hiddenForSelection (now : IsoTimestamp) (envelope : MessageEnvelope) (mode : ReadSelection) : Bool :=
  isExpiredEphemeral envelope now || (decide (mode ≠ .all) && isEphemeral envelope && envelope.read)

def MailboxBucketCounts.none : MailboxBucketCounts := ⟨0, 0, 0⟩

def MailboxBucketCounts.add (counts : MailboxBucketCounts) : DisplayBucket → MailboxBucketCounts
  | .unread => { counts with unread := counts.unread + 1 }
  | .pendingAck => { counts with pendingAck := counts.pendingAck + 1 }
  | .history => { counts with history := counts.history + 1 }

def bucketCountsFor (now : IsoTimestamp) (messages : List ClassifiedMessage) : MailboxBucketCounts :=
  messages.foldl (fun counts message =>
    if hiddenFromNormalViews now message.envelope then counts else counts.add message.bucket) .none

def selectClassifiedMailboxCandidates (now : IsoTimestamp) (candidates : List MailboxSelectionCandidate)
    (request : MailboxSelectionRequest) : MailboxBucketCounts × List ClassifiedMessage :=
  let classifiedAll := classifyCandidates candidates
  match request.messageIdFilter with
  | some messageId =>
    (bucketCountsFor now (logicalCurrentMessages classifiedAll),
      classifiedAll.filter (fun message => decide (message.envelope.messageId = some messageId) &&
        matchesParticipantFilter message.envelope request.participantFilter &&
        messageMatchesContains message request.containsFilter))
  | none =>
    let logicalCurrent := logicalCurrentMessages classifiedAll
    let filtered := applyTaskFilter (applyTimestampFilter (applyParticipantFilter
      (applySenderFilter logicalCurrent request.senderFilter) request.participantFilter) request.timestampFilter)
      request.taskFilter
    (bucketCountsFor now logicalCurrent,
      applySelectionMode
        (filtered.filter (fun message => !hiddenForSelection now message.envelope request.selectionMode &&
          messageMatchesContains message request.containsFilter))
        request.selectionMode)

structure MailboxSelectionResult where
  bucketCounts : MailboxBucketCounts
  selected : List SelectedMailboxMessage

def selectMailboxCandidates (now : IsoTimestamp) (candidates : List MailboxSelectionCandidate)
    (request : MailboxSelectionRequest) : MailboxSelectionResult :=
  let (counts, selected) := selectClassifiedMailboxCandidates now candidates request
  ⟨counts, selected.map (fun message => ⟨message.messageKey, message.bucket, message.«class», message.envelope⟩)⟩

/-- The order of display: the newest first, then the greatest id, then the greatest key. -/
def displayedBefore (left right : SelectedMailboxMessage) : Bool :=
  decide (right.envelope.timestamp.nanos < left.envelope.timestamp.nanos ∨
    (right.envelope.timestamp.nanos = left.envelope.timestamp.nanos ∧
      (idRank right.envelope.messageId < idRank left.envelope.messageId ∨
        (idRank right.envelope.messageId = idRank left.envelope.messageId ∧
          right.messageKey.val ≤ left.messageKey.val))))

def sortAndLimitMailboxSelection (selected : List SelectedMailboxMessage) (limit : Option Nat) :
    List SelectedMailboxMessage :=
  limited limit (selected.mergeSort displayedBefore)

def selectionCandidate (message : Message) : MailboxSelectionCandidate := ⟨message.messageKey, message.envelope⟩

end AtmCore
