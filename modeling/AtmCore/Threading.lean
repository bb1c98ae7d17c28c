import AtmCore.Envelope

/-! Message threads. The index of a mailbox finds a message by its id and the successors of an id. Each walk along a
thread keeps the set of the ids it has seen, so it stops on a cycle, and the given fuel is never used up.

The logical current envelope of a message is the last message of its thread. Where that one adds details, its text
is the text of the thread from the last superseding message on. -/

namespace AtmCore

def isEphemeral (message : MessageEnvelope) : Bool := message.expiresAt.isSome

def isExpiredEphemeral (message : MessageEnvelope) (now : IsoTimestamp) : Bool :=
  message.expiresAt.any (fun expiresAt => decide (expiresAt.nanos ≤ now.nanos))

def canonicalSenderIdentity (message : MessageEnvelope) : AgentName := message.from

/-- `Ord` of an optional message id. -/
def idRank (id : Option AtmMessageId) : Nat := id.elim 0 (fun id => id.val + 1)

structure ThreadIndex where
  messages : List MessageEnvelope

namespace ThreadIndex

/-- `by_id`: a later message of an id displaces an earlier one. -/
def message (index : ThreadIndex) (id : AtmMessageId) : Option MessageEnvelope :=
  index.messages.reverse.find? (fun message => decide (message.messageId = some id))

def children (index : ThreadIndex) (id : AtmMessageId) : List MessageEnvelope :=
  index.messages.filter (fun message => decide (message.parentMessageId = some id))

def rootLoop (index : ThreadIndex) : Nat → List AtmMessageId → AtmMessageId → Option AtmMessageId
  | 0, _, _ => none
  | fuel + 1, seen, current =>
    match index.message current with
    | none => none
    | some message =>
      match message.parentMessageId with
      | none => some current
      | some parentId =>
        if current ∈ seen then some current else index.rootLoop fuel (current :: seen) parentId

def rootId (index : ThreadIndex) (id : AtmMessageId) : Option AtmMessageId :=
  index.rootLoop (index.messages.length + 1) [] id

def hasSuccessor (index : ThreadIndex) (id : AtmMessageId) : Bool := !(index.children id).isEmpty

/-- The comparison of two successors: by time, then by id. -/
def precedes (left right : MessageEnvelope) : Bool :=
  decide (left.timestamp.nanos < right.timestamp.nanos ∨
    (left.timestamp.nanos = right.timestamp.nanos ∧ idRank left.messageId ≤ idRank right.messageId))

/-- `max_by` keeps the last of several greatest elements. -/
def primarySuccessor (index : ThreadIndex) (id : AtmMessageId) : Option MessageEnvelope :=
  match index.children id with
  | [] => none
  | first :: rest => some (rest.foldl (fun best next => if precedes best next then next else best) first)

def terminalLoop (index : ThreadIndex) : Nat → List AtmMessageId → AtmMessageId → Option AtmMessageId
  | 0, _, _ => none
  | fuel + 1, seen, current =>
    if current ∈ seen then some current
    else
      match index.primarySuccessor current with
      | none => some current
      | some successor =>
        match successor.messageId with
        | none => none
        | some next => index.terminalLoop fuel (current :: seen) next

def terminalId (index : ThreadIndex) (id : AtmMessageId) : Option AtmMessageId :=
  index.terminalLoop (index.messages.length + 2) [] id

def isTerminal (index : ThreadIndex) (id : AtmMessageId) : Bool := decide (index.terminalId id = some id)

def chainLoop (index : ThreadIndex) : Nat → List AtmMessageId → Option AtmMessageId → List MessageEnvelope
  | 0, _, _ => []
  | _ + 1, _, none => []
  | fuel + 1, seen, some id =>
    if id ∈ seen then []
    else
      match index.message id with
      | none => []
      | some message =>
        message :: index.chainLoop fuel (id :: seen) ((index.primarySuccessor id).bind MessageEnvelope.messageId)

def chainMessages (index : ThreadIndex) (id : AtmMessageId) : List MessageEnvelope :=
  match index.rootId id with
  | none => []
  | some rootId => index.chainLoop (index.messages.length + 1) [] (some rootId)

def threadRequiresAck (index : ThreadIndex) (id : AtmMessageId) : Bool :=
  (index.chainMessages id).any MessageEnvelope.requiresAck

end ThreadIndex

def maxLogicalThreadTextBytes : Nat := 256 * 1024
def truncatedThreadContextSentinel : String := "\n\n[ATM thread context truncated]"

/-- The longest beginning of a text that has at most so many bytes. -/
def takeBytes : Nat → List Char → List Char
  | _, [] => []
  | bytes, c :: cs => if c.utf8Size ≤ bytes then c :: takeBytes (bytes - c.utf8Size) cs else []

/-- `rposition` of the last superseding message, or the root. -/
def contextStart (chain : List MessageEnvelope) : Nat :=
  match chain.reverse.findIdx? (fun message => decide (message.threadMode = some .supersede)) with
  | some i => chain.length - 1 - i
  | none => 0

def composeThreadText (chain : List MessageEnvelope) : String :=
  let texts := ((chain.drop (contextStart chain)).map (fun message => trim message.text)).filter (· ≠ "")
  let composed := "\n\n".intercalate texts
  if maxLogicalThreadTextBytes < composed.utf8ByteSize then
    String.ofList (takeBytes (maxLogicalThreadTextBytes - truncatedThreadContextSentinel.utf8ByteSize)
      composed.toList) ++ truncatedThreadContextSentinel
  else composed

def ThreadIndex.logicalCurrentEnvelope (index : ThreadIndex) (id : AtmMessageId) : Option MessageEnvelope := do
  let terminalId ← index.terminalId id
  let terminal ← index.message terminalId
  if terminal.threadMode = some .addDetails then
    let text := composeThreadText (index.chainMessages terminalId)
    return if text = "" then terminal else { terminal with text := text }
  else
    return terminal

end AtmCore
