import AtmCore.LedgerMessages
import AtmCore.WriteOps
import AtmCore.WriteRequest

/-! The reply of an acknowledgement, as the application layer builds it inside the writer's transaction. A member who
acknowledges answers the sender of the source, on the host the source came from or went to; an acknowledgement received
from a peer comes with its own destination and its own id. Either way the reply is plain mail, and nothing of it depends
on whether the source was read. -/

namespace AtmCore

open Fallible

structure AckRequest where
  callerIdentity : AgentName
  callerChatId : Option ChatId
  callerTeam : TeamName
  messageId : AtmMessageId
  replyBody : String

structure ReplyTarget where
  agent : AgentName
  team : TeamName
  host : Option HostName

inductive AtomicAcknowledgementKind where
  | «local» (request : AckRequest)
  | received (request : WriteRequest)

def replyTargetHost (source : MessageEnvelope) : Except AtmError (Option HostName) := do
  let authenticated ← authenticatedSourceHost source
  let outbound ← peerDeliveryTarget source
  let validated ← validateWriteProvenance .canonical
    ⟨outbound, authenticated, authenticated.isSome, authenticated.isSome⟩
  return (if validated.authenticatedPeer then authenticated else none).or outbound

def replyTargetFromSource (source : MessageEnvelope) (currentTeam : TeamName) :
    Except AtmError ReplyTarget := do
  let host ← replyTargetHost source
  return ⟨source.from, source.sourceTeam.getD currentTeam, host⟩

/-- The write request of a local acknowledgement. -/
def canonicalAckWriteRequest (request : AckRequest) (target : ReplyTarget) (source : Message) :
    Except AtmError WriteRequest := do
  let destination ← AgentAddress.new target.agent source.envelope.sourceChatId (some target.team) target.host
  return {
    callerIdentity := request.callerIdentity
    callerChatId := request.callerChatId
    callerTeam := request.callerTeam
    authenticatedSourceHost := none
    originMessageId := none
    originTimestamp := none
    destination := some destination
    messageSource := .inline request.replyBody
    classification := ⟨none, [], none⟩
    requiresAck := false
    taskId := none
    placement := none
    taskOp := none
    taskComplete := none
    parentMessageId := none
    threadMode := none
    expiresAt := none
    acknowledgesMessageId := some request.messageId
    dryRun := false
    daemonEscalationProvenance := false }

def acknowledgementEnvelope (request : WriteRequest) (destination : AgentAddress) (actor : AgentName)
    (team : TeamName) (replyText : String) (acknowledged messageId : AtmMessageId) (timestamp : IsoTimestamp) :
    MessageEnvelope where
  «from» := actor
  sourceChatId := request.callerChatId
  text := replyText
  timestamp := timestamp
  read := false
  sourceTeam := some team
  destinationChatId := destination.chatId
  summary := some (buildSummary replyText)
  messageId := some messageId
  requiresAck := false
  pendingAckAt := none
  acknowledgedAt := none
  acknowledgesMessageId := some acknowledged
  parentMessageId := none
  threadMode := none
  expiresAt := none
  taskId := none
  placement := none
  taskOp := none
  taskComplete := none
  extra := match directPeerDestination request destination with
    | some host => setPeerDeliveryTarget [] host
    | none => []

/-- `build_atomic_acknowledgement`; the id and the instant of the reply are the origin's, or fresh. -/
def buildAtomicAcknowledgement (request : WriteRequest) (actor : AgentName) (team : TeamName)
    (target : ReplyTarget) (replyText : String) (acknowledged fresh : AtmMessageId) (now : IsoTimestamp) :
    Except AtmError Message :=
  if request.authenticatedSourceHost.isNone ∧ target.host.isNone ∧ actor = target.agent ∧
      team = target.team then
    .error (.selfAddressedSendInvalid
      s!"self-addressed messages are invalid ATM input: '{actor.val}@{team.val}' may not send to itself")
  else
    match request.destination with
    | none => .error (.validation "acknowledgement reply is missing a canonical destination")
    | some destination =>
      match destination.team with
      | none => .error (.validation "acknowledgement reply destination is missing a team")
      | some replyTeam =>
        let messageId := request.originMessageId.getD fresh
        .ok {
          team := replyTeam
          agent := destination.agent
          messageKey := .fromAtmMessageId messageId
          envelope := acknowledgementEnvelope request destination actor team replyText acknowledged messageId
            (request.originTimestamp.getD now) }

def AtomicAcknowledgementKind.buildReply (kind : AtomicAcknowledgementKind) (fresh : AtmMessageId)
    (now : IsoTimestamp) (source : Message) : Except AtmError Message :=
  match kind with
  | .local request => do
    let target ← replyTargetFromSource source.envelope request.callerTeam
    let canonical ← canonicalAckWriteRequest request target source
    buildAtomicAcknowledgement canonical request.callerIdentity request.callerTeam target request.replyBody
      request.messageId fresh now
  | .received request =>
    match request.destination with
    | none => .error (.validation "received peer acknowledgement is missing a destination")
    | some destination =>
      let team := destination.team.getD request.callerTeam
      match request.acknowledgesMessageId with
      | none => .error (.validation "acknowledgement write is missing acknowledges_message_id")
      | some acknowledged =>
        match request.messageSource with
        | .inline replyText =>
          buildAtomicAcknowledgement request destination.agent team ⟨destination.agent, team, destination.host⟩
            replyText acknowledged fresh now
        | _ => .error (.validation "acknowledgement reply body must be inline")

def AtomicAcknowledgementKind.replyId (kind : AtomicAcknowledgementKind) (fresh : AtmMessageId) : AtmMessageId :=
  match kind with
  | .local _ => fresh
  | .received request => request.originMessageId.getD fresh

/-- Mail that is outside of every task and every thread. -/
structure Message.IsReply (reply : Message) (id : AtmMessageId) : Prop where
  messageId : reply.envelope.messageId = some id
  messageKey : reply.messageKey = .fromAtmMessageId id
  untasked : reply.envelope.taskId = none
  unparented : reply.envelope.parentMessageId = none

variable {error : AtmError} {reply : Message}

section Builder

variable {request : WriteRequest} {actor : AgentName} {team : TeamName} {target : ReplyTarget}
  {replyText : String} {acknowledged fresh : AtmMessageId} {now : IsoTimestamp} {source : Message}

theorem buildAtomicAcknowledgement_isReply
    (h : buildAtomicAcknowledgement request actor team target replyText acknowledged fresh now = .ok reply) :
    reply.IsReply (request.originMessageId.getD fresh) := by
  unfold buildAtomicAcknowledgement at h
  split at h
  · cases h
  split at h
  · cases h
  split at h
  · cases h
  cases h
  exact ⟨rfl, rfl, rfl, rfl⟩

theorem buildAtomicAcknowledgement_plain
    (h : buildAtomicAcknowledgement request actor team target replyText acknowledged fresh now = .error error) :
    error.Plain := by
  unfold buildAtomicAcknowledgement at h
  split at h
  · cases h
    exact ⟨rfl, rfl⟩
  split at h
  · cases h
    exact ⟨rfl, rfl⟩
  split at h
  · cases h
    exact ⟨rfl, rfl⟩
  · cases h

theorem persistedHost_plain {text : Option String} {missing invalid : String}
    (h : persistedHost text missing invalid = .error error) : error.Plain := by
  unfold persistedHost at h
  split at h
  · cases h
    exact ⟨rfl, rfl⟩
  · split at h <;> cases h
    exact ⟨rfl, rfl⟩

theorem validateWriteProvenance_plain {ingress : WriteIngress} {provenance : WriteProvenance}
    (h : validateWriteProvenance ingress provenance = .error error) : error.Plain := by
  unfold validateWriteProvenance at h
  dsimp only at h
  split at h
  · cases h
    exact ⟨rfl, rfl⟩
  split at h
  · cases h
    exact ⟨rfl, rfl⟩
  split at h
  · cases h
  · split at h <;> cases h
    exact ⟨rfl, rfl⟩
  · split at h <;> cases h
    exact ⟨rfl, rfl⟩
  · split at h <;> cases h
    exact ⟨rfl, rfl⟩
  · cases h
    exact ⟨rfl, rfl⟩

theorem replyTargetFromSource_plain {envelope : MessageEnvelope}
    (h : replyTargetFromSource envelope team = .error error) : error.Plain := by
  rcases bind_eq_error.mp h with h | ⟨_, -, h⟩
  · rcases bind_eq_error.mp h with h | ⟨_, -, h⟩
    · unfold authenticatedSourceHost at h
      split at h
      · cases h
      · exact persistedHost_plain h
    · rcases bind_eq_error.mp h with h | ⟨_, -, h⟩
      · unfold peerDeliveryTarget at h
        split at h
        · cases h
        · exact persistedHost_plain h
      · rcases bind_eq_error.mp h with h | ⟨_, -, h⟩
        · exact validateWriteProvenance_plain h
        · cases h
  · cases h

/-- The destination of a local acknowledgement has a team, so its address is well formed. -/
theorem canonicalAckWriteRequest_eq_ok {request : AckRequest} :
    ∃ canonical, canonicalAckWriteRequest request target source = .ok canonical ∧
      canonical.originMessageId = none := by
  have hqualified : target.host.isSome = true → (some target.team).isSome = true := fun _ => rfl
  unfold canonicalAckWriteRequest AgentAddress.new
  rw [dif_pos hqualified]
  exact ⟨_, rfl, rfl⟩

end Builder

namespace AtomicAcknowledgementKind

variable (kind : AtomicAcknowledgementKind) (fresh : AtmMessageId) (now : IsoTimestamp) {source : Message}

theorem buildReply_plain (h : kind.buildReply fresh now source = .error error) : error.Plain := by
  cases kind with
  | «local» request =>
    rcases bind_eq_error.mp h with h | ⟨target, -, h⟩
    · exact replyTargetFromSource_plain h
    · obtain ⟨canonical, hcanon, -⟩ := canonicalAckWriteRequest_eq_ok
      rw [hcanon, bind_ok] at h
      exact buildAtomicAcknowledgement_plain h
  | received request =>
    unfold buildReply at h
    dsimp only at h
    split at h
    · cases h
      exact ⟨rfl, rfl⟩
    split at h
    · cases h
      exact ⟨rfl, rfl⟩
    split at h
    · exact buildAtomicAcknowledgement_plain h
    · cases h
      exact ⟨rfl, rfl⟩

theorem buildReply_isReply (h : kind.buildReply fresh now source = .ok reply) :
    reply.IsReply (kind.replyId fresh) := by
  cases kind with
  | «local» request =>
    obtain ⟨target, -, h⟩ := bind_eq_ok.mp h
    obtain ⟨canonical, hcanon, horigin⟩ := canonicalAckWriteRequest_eq_ok
    rw [hcanon, bind_ok] at h
    have hreply := buildAtomicAcknowledgement_isReply h
    rwa [horigin] at hreply
  | received request =>
    unfold buildReply at h
    dsimp only at h
    split at h
    · cases h
    split at h
    · cases h
    split at h
    · exact buildAtomicAcknowledgement_isReply h
    · cases h

/-- The builder the writer is handed. -/
def builder : AcknowledgementReplyBuilder where
  buildReply source := Outcome.lift (kind.buildReply fresh now source)
  buildReply_cause source error h := by
    cases hbuild : kind.buildReply fresh now source with
    | ok reply =>
      rw [hbuild] at h
      cases h
    | error built =>
      rw [hbuild] at h
      cases h
      exact (kind.buildReply_plain fresh now hbuild).1

end AtomicAcknowledgementKind

end AtmCore
