import AtmCore.AsyncReads

/-! The synchronous listing of a mailbox. It selects on metadata, which have no text, loads a message again where a text
filter asks for it, and renders what is listed. The limit of a query without another filter goes to the storage, before
threads are reduced and messages selected. -/

namespace AtmCore

structure ListQuery where
  scope : MailboxScope
  selectionMode : ReadSelection
  senderFilter : Option AgentName
  timestampFilter : Option IsoTimestamp
  taskFilter : Option TaskId
  containsFilter : Option String
  limit : Option Nat

def ListQuery.selection (query : ListQuery) : MailboxSelectionRequest where
  selectionMode := query.selectionMode
  messageIdFilter := none
  senderFilter := query.senderFilter
  participantFilter := none
  timestampFilter := query.timestampFilter
  taskFilter := query.taskFilter
  containsFilter := query.containsFilter

def prepareAsyncList (query : ListQuery) : AsyncListCommand where
  scope := query.scope
  selection := query.selection
  limit := query.limit

/-- What stops a listing: an error, or a loop that does not end. -/
inductive ListStop where
  | error (error : AtmError)
  | endless

/-- `metadata_candidate` of the metadata row of a message: no text, and no more than the listing needs. -/
def metadataView (envelope : MessageEnvelope) : MessageEnvelope where
  «from» := envelope.from
  sourceChatId := envelope.sourceChatId
  text := ""
  timestamp := envelope.timestamp
  read := envelope.read
  sourceTeam := none
  destinationChatId := envelope.destinationChatId
  summary := envelope.summary
  messageId := envelope.messageId
  requiresAck := decide (deriveAckRequirement envelope ≠ .notRequired)
  pendingAckAt := if deriveAckRequirement envelope = .requiredPending then some envelope.timestamp else none
  acknowledgedAt := envelope.acknowledgedAt
  acknowledgesMessageId := none
  parentMessageId := envelope.parentMessageId
  threadMode := envelope.threadMode
  expiresAt := envelope.expiresAt
  taskId := envelope.taskId
  placement := none
  taskOp := none
  taskComplete := none
  extra := []

def metadataCandidate (message : Message) : MailboxSelectionCandidate :=
  ⟨message.messageKey, metadataView message.envelope⟩

def metadataLimitForList (query : ListQuery) : Option Nat :=
  if query.senderFilter = none ∧ query.timestampFilter = none ∧ query.taskFilter = none ∧
    query.containsFilter = none then
    query.limit
  else none

/-- `row_by_id`: a later row of an id displaces an earlier one. -/
def rowById (rows : List Message) (id : AtmMessageId) : Option Message :=
  rows.reverse.find? (fun row => decide (row.envelope.messageId = some id))

/-- The ids from a message upwards. The loop has no memory of where it was: more steps than there are rows means that it
goes round. -/
def chainIds (rows : List Message) : Nat → AtmMessageId → Option (List AtmMessageId)
  | 0, _ => none
  | fuel + 1, current =>
    match rowById rows current with
    | none => some []
    | some row =>
      match row.envelope.parentMessageId with
      | none => some [current]
      | some parentId => (chainIds rows fuel parentId).map (current :: ·)

def loadLogicalCurrentRecord (mailbox : MailboxScope) (rows : List Message)
    (selected terminal : MessageEnvelope) (db : Db) : Except ListStop MessageEnvelope :=
  match terminal.messageId with
  | none => .ok terminal
  | some id =>
    match chainIds rows (rows.length + 1) id with
    | none => .error .endless
    | some ids =>
      match ids.reverse.mapM
        (fun id => (rowById rows id).bind (fun row => loadMessageRecord mailbox row.messageKey db)) with
      | none => .ok selected
      | some chain =>
        match (⟨chain.map Message.envelope⟩ : ThreadIndex).logicalCurrentEnvelope id with
        | some envelope => .ok envelope
        | none => .error (.error (.validation "failed to reconstruct logical current thread envelope"))

def liftListing {α : Type} : Except AtmError α → Except ListStop α
  | .ok a => .ok a
  | .error error => .error (.error error)

def loadDurableMessageText (port : RenderPort) (mailbox : MailboxScope) (rows : List Message)
    (selected : MessageEnvelope) (key : MessageKey) (db : Db) : Except ListStop String :=
  match loadMessageRecord mailbox key db with
  | none => .ok selected.text
  | some record => do
    let envelope ←
      if record.envelope.threadMode = some .addDetails then
        loadLogicalCurrentRecord mailbox rows selected record.envelope db
      else .ok record.envelope
    let rendered ← liftListing (renderMessageBody port key envelope db)
    return rendered.text

/-- Whether the text filter takes a listed message. -/
def matchesDurableText (port : RenderPort) (mailbox : MailboxScope) (rows : List Message) (needle : String) (db : Db)
    (message : ClassifiedMessage) : Except ListStop Bool :=
  match rows[message.sourceIndex]? with
  | none => .error (.error (.validation
      s!"sqlite mailbox metadata source index {message.sourceIndex} is out of range during contains filtering"))
  | some row =>
    if textContainsNeedle row.envelope.summary needle then .ok true
    else do
      let text ← loadDurableMessageText port mailbox rows message.envelope row.messageKey db
      return textContainsNeedle (some text) needle

def filterContainsCandidates (port : RenderPort) (mailbox : MailboxScope) (rows : List Message) (needle : Option String)
    (db : Db) (messages : List ClassifiedMessage) : Except ListStop (List ClassifiedMessage) :=
  match needle with
  | none => .ok messages
  | some needle => do
    let selected ← messages.mapM (fun message => do
      let taken ← matchesDurableText port mailbox rows needle db message
      return if taken then some message else none)
    return selected.filterMap id

/-- The order of the synchronous listing: the newest first, then the greatest id, then the last of the listed. -/
def listedBefore (left right : ClassifiedMessage) : Bool :=
  decide (right.envelope.timestamp.nanos < left.envelope.timestamp.nanos ∨
    (right.envelope.timestamp.nanos = left.envelope.timestamp.nanos ∧
      (idRank right.envelope.messageId < idRank left.envelope.messageId ∨
        (idRank right.envelope.messageId = idRank left.envelope.messageId ∧ right.sourceIndex ≤ left.sourceIndex))))

def sortAndLimitSelected (selected : List ClassifiedMessage) (limit : Option Nat) : List ClassifiedMessage :=
  limited limit (selected.mergeSort listedBefore)

/-- The logical current messages that the filters of a listing take, apart from its text filter. -/
def selectListed (now : IsoTimestamp) (query : ListQuery) (candidates : List MailboxSelectionCandidate) :
    List ClassifiedMessage :=
  applySelectionMode
    ((applyTaskFilter (applyTimestampFilter (applySenderFilter (logicalCurrentMessages (classifyCandidates candidates))
      query.senderFilter) query.timestampFilter) query.taskFilter).filter
        (fun message => !hiddenForSelection now message.envelope query.selectionMode))
    query.selectionMode

def listMail (port : RenderPort) (now : IsoTimestamp) (query : ListQuery) (db : Db) : Except ListStop ListOutcome := do
  let bucketCounts := mailboxBucketCounts now query.scope db
  let metadataRows := listMessages now ⟨query.scope, none, none, metadataLimitForList query⟩ db
  let selected ← filterContainsCandidates port query.scope metadataRows query.containsFilter db
    (selectListed now query (metadataRows.map metadataCandidate))
  let rendered ← (sortAndLimitSelected selected query.limit).mapM
    (fun message => liftListing (renderMessageBody port message.messageKey message.envelope db))
  let rows := rendered.map listRowFromMessage
  return {
    team := query.scope.team
    agent := query.scope.agent
    selectionMode := query.selectionMode
    historyCollapsed := decide (query.selectionMode ≠ .all) && decide (0 < bucketCounts.history)
    count := rows.length
    rows := rows
    bucketCounts := bucketCounts }

end AtmCore
