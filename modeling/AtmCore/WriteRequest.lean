import AtmCore.Database
import Mathlib.Data.List.SplitOn

/-! The canonical write request of the application layer, as far as the modelled functions read it, and the
transport metadata that a message carries among its extra members: the host an adapter authenticated for
an inbound message, and the peer an outbound one is routed to. -/

namespace AtmCore

open List

/-- A host is one or more path segments joined by dots. -/
def isHostLabel (label : List Char) : Bool := !label.isEmpty && label.all isSegmentChar

def isHostName (text : String) : Bool := (text.toList.splitOn '.').all isHostLabel

structure HostName where
  val : String
  valid : isHostName val = true
  deriving DecidableEq

/-- `FromStr` of a host; its callers replace the error by their own. -/
def HostName.parse (value : String) : Option HostName :=
  if h : isHostName (trim value) = true then some ⟨trim value, h⟩ else none

theorem isWhitespace_of_mem_host {text : String} (h : isHostName text = true) {c : Char} (hc : c ∈ text.toList) :
    isWhitespace c = false := by
  have hmem : ∀ labels : List (List Char), (∀ label ∈ labels, isHostLabel label = true) →
      c ∈ ['.'].intercalate labels → isWhitespace c = false := by
    intro labels hlabels hc
    induction labels with
    | nil => simp at hc
    | cons label labels ih =>
      have hlabel : c ∈ label → isWhitespace c = false := by
        intro hc
        have hall := (Bool.and_eq_true_iff.mp (hlabels label mem_cons_self)).2
        exact isWhitespace_of_isSegmentChar (List.all_eq_true.mp hall c hc)
      cases labels with
      | nil =>
        rw [intercalate_singleton] at hc
        exact hlabel hc
      | cons next labels =>
        rw [intercalate_cons_cons, append_assoc] at hc
        rcases mem_append.mp hc with hc | hc
        · exact hlabel hc
        · rcases mem_append.mp hc with hc | hc
          · rw [mem_singleton.mp hc]
            decide
          · exact ih (fun l hl => hlabels l (mem_cons_of_mem label hl)) hc
  rw [isHostName, List.all_eq_true] at h
  refine hmem _ h ?_
  rw [intercalate_splitOn]
  exact hc

theorem HostName.parse_val (host : HostName) : HostName.parse host.val = some host := by
  have htrim : trim host.val = host.val := trim_eq_self (fun c hc => isWhitespace_of_mem_host host.valid hc)
  rw [HostName.parse, dif_pos (by rw [htrim]; exact host.valid)]
  cases host
  simp only [htrim]

/-- An address; a host always comes with a team. -/
structure AgentAddress where
  agent : AgentName
  chatId : Option ChatId
  team : Option TeamName
  host : Option HostName
  qualified : host.isSome = true → team.isSome = true
  deriving DecidableEq

def AgentAddress.new (agent : AgentName) (chatId : Option ChatId) (team : Option TeamName)
    (host : Option HostName) : Except AtmError AgentAddress :=
  if h : host.isSome = true → team.isSome = true then .ok ⟨agent, chatId, team, host, h⟩
  else .error (.addressParse "a host-qualified address must also specify a team")

inductive SendMessageSource where
  | inline (text : String)
  | file (path : String) (message : Option String)
  | template
  deriving DecidableEq

structure MessageClassification where
  category : Option String
  tags : List String
  contentFormat : Option String
  deriving DecidableEq

structure WriteRequest where
  callerIdentity : AgentName
  callerChatId : Option ChatId
  callerTeam : TeamName
  authenticatedSourceHost : Option HostName
  originMessageId : Option AtmMessageId
  originTimestamp : Option IsoTimestamp
  destination : Option AgentAddress
  messageSource : SendMessageSource
  classification : MessageClassification
  requiresAck : Bool
  taskId : Option TaskId
  placement : Option MoveTarget
  taskOp : Option TaskOp
  taskComplete : Option TaskId
  parentMessageId : Option AtmMessageId
  threadMode : Option ThreadMode
  expiresAt : Option IsoTimestamp
  acknowledgesMessageId : Option AtmMessageId
  dryRun : Bool
  daemonEscalationProvenance : Bool

def Value.insert (members : List (String × Value)) (name : String) (value : Value) : List (String × Value) :=
  (members.filter (fun entry => entry.1 != name)) ++ [(name, value)]

def Value.remove (members : List (String × Value)) (name : String) : List (String × Value) :=
  members.filter (fun entry => entry.1 != name)

variable {members : List (String × Value)} {name other : String}

theorem Value.lookup_filter_ne (h : other ≠ name) :
    Value.lookup (members.filter (fun entry => entry.1 != name)) other = Value.lookup members other := by
  rw [Value.lookup, Value.lookup, find?_filter]
  congr 2
  funext entry
  by_cases hentry : entry.1 = other
  · rw [hentry]
    simp [h]
  · simp [hentry]

theorem Value.lookup_remove_of_ne (h : other ≠ name) :
    Value.lookup (Value.remove members name) other = Value.lookup members other :=
  Value.lookup_filter_ne h

theorem Value.lookup_insert_of_ne {value : Value} (h : other ≠ name) :
    Value.lookup (Value.insert members name value) other = Value.lookup members other := by
  have hold : Value.lookup (members.filter (fun entry => entry.1 != name)) other = Value.lookup members other :=
    Value.lookup_filter_ne h
  rw [Value.lookup] at hold
  rw [Value.insert, Value.lookup, find?_append, find?_cons_of_neg (by simpa using h.symm),
    find?_nil, Option.or_none, hold]

theorem Value.lookup_insert_self (value : Value) :
    Value.lookup (Value.insert members name value) name = some value := by
  have hnone : (members.filter (fun entry => entry.1 != name)).find? (fun entry => entry.1 == name) = none := by
    rw [find?_eq_none]
    intro entry hentry
    simpa using (mem_filter.mp hentry).2
  rw [Value.insert, Value.lookup, find?_append, hnone, Option.none_or, find?_cons_of_pos (by simp)]
  rfl

def authenticatedSourceHostKey : String := "sourceHost"
def peerOutboundKey : String := "peerOutbound"
def daemonEscalationProvenanceKey : String := "daemonEscalationProvenance"

/-- The host of a stored member, or the error of its reader. -/
def persistedHost (text : Option String) (missing invalid : String) : Except AtmError (Option HostName) :=
  match text with
  | none => .error (.mailboxRead missing)
  | some text =>
    match HostName.parse text with
    | some host => .ok (some host)
    | none => .error (.mailboxRead invalid)

def authenticatedSourceHost (message : MessageEnvelope) : Except AtmError (Option HostName) :=
  match Value.lookup message.extra authenticatedSourceHostKey with
  | none => .ok none
  | some value =>
    persistedHost value.asStr "persisted authenticated source host is not a string"
      "persisted authenticated source host is invalid"

def peerDeliveryTarget (message : MessageEnvelope) : Except AtmError (Option HostName) :=
  match Value.lookup message.extra peerOutboundKey with
  | none => .ok none
  | some value =>
    persistedHost ((value.get "host").bind Value.asStr) "persisted peer outbound host is invalid"
      "persisted peer outbound host is invalid"

def setAuthenticatedSourceHost (extra : List (String × Value)) (host : Option HostName) :
    List (String × Value) :=
  match host with
  | some host => Value.insert extra authenticatedSourceHostKey (.string host.val)
  | none => Value.remove extra authenticatedSourceHostKey

def setDaemonEscalationProvenance (extra : List (String × Value)) (enabled : Bool) : List (String × Value) :=
  if enabled then Value.insert extra daemonEscalationProvenanceKey (.bool true)
  else Value.remove extra daemonEscalationProvenanceKey

def setPeerDeliveryTarget (extra : List (String × Value)) (host : HostName) : List (String × Value) :=
  Value.insert extra peerOutboundKey (.object [("host", .string host.val)])

/-- The transport bookkeeping is not part of the immutable message. -/
def clearTransportDeliveryMetadata (extra : List (String × Value)) : List (String × Value) :=
  Value.remove (Value.remove extra authenticatedSourceHostKey) peerOutboundKey

inductive WriteIngress where
  | canonical
  | «local»
  | peer
  | untrustedSmoke
  | anonymousSmoke
  deriving DecidableEq

structure WriteProvenance where
  targetHost : Option HostName
  authenticatedSourceHost : Option HostName
  originMessageId : Bool
  originTimestamp : Bool

structure ValidatedWriteProvenance where
  targetHostQualified : Bool
  authenticatedPeer : Bool
  originMetadata : Bool

def validateWriteProvenance (ingress : WriteIngress) (provenance : WriteProvenance) :
    Except AtmError ValidatedWriteProvenance :=
  let hasAny := provenance.originMessageId || provenance.originTimestamp
  let hasComplete := provenance.originMessageId && provenance.originTimestamp
  let authenticatedPeer := provenance.authenticatedSourceHost.isSome
  let validated := ⟨provenance.targetHost.isSome, authenticatedPeer, hasComplete⟩
  if hasAny && !hasComplete && decide (ingress ≠ .canonical) then
    .error (.validation
      "write provenance requires both origin_message_id and origin_timestamp; preserve the immutable origin metadata as a pair")
  else if authenticatedPeer && !hasComplete then
    .error (.validation
      "authenticated peer writes require source host, origin_message_id, and origin_timestamp; retry through the authenticated peer adapter")
  else
    match ingress with
    | .canonical => .ok validated
    | .local =>
      if authenticatedPeer || hasAny then
        .error (.validation
          "local write requests must not supply authenticated peer provenance or origin metadata")
      else .ok validated
    | .peer =>
      if !authenticatedPeer || !hasComplete then
        .error (.validation
          "peer write requests require authenticated source provenance and immutable origin metadata")
      else .ok validated
    | .untrustedSmoke =>
      if authenticatedPeer || !hasComplete then
        .error (.validation
          "plaintext smoke ingress must carry origin metadata but no authenticated peer identity")
      else .ok validated
    | .anonymousSmoke =>
      .error (.validation
        "anonymous plaintext diagnostics cannot submit writes; include explicit peer provenance or use authenticated HTTPS")

/-- The peer a locally originated write is delivered to. -/
def directPeerDestination (request : WriteRequest) (destination : AgentAddress) : Option HostName :=
  if request.authenticatedSourceHost.isSome || request.originMessageId.isSome then none
  else destination.host

def summaryLimit : Nat := 100

/-- `build_summary` without an explicit summary: at most a hundred characters, cut at a blank. -/
def buildSummary (message : String) : String :=
  let trimmed := (trim message).toList
  if trimmed.length ≤ summaryLimit then String.ofList trimmed
  else
    let slice := trimmed.take summaryLimit
    -- what stands before the last blank, without the blanks at its end
    match (slice.reverse.dropWhile (fun c => !isWhitespace c)) with
    | [] => String.ofList slice ++ "..."
    | _ :: before => String.ofList (before.dropWhile isWhitespace).reverse ++ "..."

end AtmCore
