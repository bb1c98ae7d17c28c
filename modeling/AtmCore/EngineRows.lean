import AtmCore.LogicalMessages

/-! What the selection engine selects, message by message. Once the threads are reduced, each message is taken or left
by what it says itself, with the text of its thread. Where no candidate is the parent of another, each of them is
looked at alone. -/

namespace AtmCore

open List

/-- The filters of a request that names no message id, on a message with the text it shows. -/
def MailboxSelectionRequest.passes (request : MailboxSelectionRequest) (now : IsoTimestamp)
    (message : MessageEnvelope) : Bool :=
  request.senderFilter.all (fun sender => decide (message.from = sender)) &&
  matchesParticipantFilter message request.participantFilter &&
  request.timestampFilter.all (fun since => decide (since.nanos ≤ message.timestamp.nanos)) &&
  request.taskFilter.all (fun taskId => decide (message.taskId = some taskId)) &&
  !hiddenForSelection now message request.selectionMode &&
  request.containsFilter.all (textContainsNeedle (some message.text)) &&
  request.selectionMode.shows (displayBucketForClass (classifyMessage message))

def ThreadIndex.shown (index : ThreadIndex) (message : MessageEnvelope) : MessageEnvelope :=
  { message with text := index.logicalText message }

/-- The message that a request without a message id takes. -/
def ThreadIndex.selects (index : ThreadIndex) (now : IsoTimestamp) (request : MailboxSelectionRequest)
    (message : MessageEnvelope) : Bool :=
  index.ends message && request.passes now (index.shown message)

def ThreadIndex.selected (index : ThreadIndex) (candidate : MailboxSelectionCandidate) : SelectedMailboxMessage where
  messageKey := candidate.messageKey
  bucket := displayBucketForClass (classifyMessage candidate.envelope)
  «class» := classifyMessage candidate.envelope
  envelope := index.shown candidate.envelope

/-- The message that a request with a message id takes. -/
def MailboxSelectionRequest.names (request : MailboxSelectionRequest) (id : AtmMessageId) (message : MessageEnvelope) :
    Bool :=
  decide (message.messageId = some id) && matchesParticipantFilter message request.participantFilter &&
    request.containsFilter.all (textContainsNeedle (some message.text))

def ThreadIndex.named (index : ThreadIndex) (candidate : MailboxSelectionCandidate) : SelectedMailboxMessage where
  messageKey := candidate.messageKey
  bucket := displayBucketForClass (classifyMessage (effectiveDisplayEnvelope candidate.envelope index))
  «class» := classifyMessage (effectiveDisplayEnvelope candidate.envelope index)
  envelope := effectiveDisplayEnvelope candidate.envelope index

section Selected

variable {now : IsoTimestamp} {candidates : List MailboxSelectionCandidate} {request : MailboxSelectionRequest}
  {id : AtmMessageId}

theorem filter_map_zipIdx_fst {α β : Type} (p : α → Bool) (g : α → β) {xs : List α} :
    (xs.zipIdx.filter (fun x => p x.1)).map (fun x => g x.1) = (xs.filter p).map g := by
  have hfilter : xs.zipIdx.filter (fun x => p x.1) = xs.zipIdx.filter (p ∘ Prod.fst) := rfl
  have hmap : (xs.zipIdx.filter (p ∘ Prod.fst)).map (fun x => g x.1) =
      ((xs.zipIdx.filter (p ∘ Prod.fst)).map Prod.fst).map g := (List.map_map ..).symm
  rw [hfilter, hmap, ← List.filter_map, zipIdx_map_fst]

/-- The engine, for a request that names no message id. -/
theorem selected_of_no_id (huniq : UniqueIds (candidateIndex candidates).messages)
    (hid : request.messageIdFilter = none) : (selectMailboxCandidates now candidates request).selected =
      (candidates.filter (fun candidate => (candidateIndex candidates).selects now request candidate.envelope)).map
        (candidateIndex candidates).selected := by
  simp only [selectMailboxCandidates, selectClassifiedMailboxCandidates, hid]
  rw [logicalCurrentMessages_classifyCandidates huniq, applySelectionMode, applyTaskFilter,
    applyTimestampFilter, applyParticipantFilter, applySenderFilter]
  simp only [List.filter_filter, List.filter_map, List.map_map]
  refine Eq.trans ?_ (filter_map_zipIdx_fst _ _)
  congr 1
  refine filter_congr (fun candidate _ => ?_)
  simp only [Function.comp_apply, logicalMessage, messageMatchesContains, ThreadIndex.selects,
    MailboxSelectionRequest.passes, ThreadIndex.shown]
  ac_rfl

/-- The engine, for a request that names a message id. -/
theorem selected_of_id (hid : request.messageIdFilter = some id) :
    (selectMailboxCandidates now candidates request).selected =
      (candidates.filter (fun candidate => request.names id candidate.envelope)).map
        (candidateIndex candidates).named := by
  simp only [selectMailboxCandidates, selectClassifiedMailboxCandidates, hid, classifyCandidates, List.filter_map,
    List.map_map]
  refine Eq.trans ?_ (filter_map_zipIdx_fst _ _)
  congr 1
  refine filter_congr (fun candidate _ => ?_)
  show request.names id (effectiveDisplayEnvelope _ _) = request.names id _
  rw [effectiveDisplayEnvelope]
  split <;> rfl

end Selected

/-- No message of the index is the parent of one of them. -/
def ThreadIndex.Apart (index : ThreadIndex) : Prop :=
  ∀ message ∈ index.messages, ∀ other ∈ index.messages, ∀ id, other.parentMessageId = some id →
    message.messageId ≠ some id

/-- The text a message shows when it is looked at alone. -/
def aloneText (message : MessageEnvelope) : String :=
  if message.messageId.isSome ∧ message.parentMessageId = none ∧ message.threadMode = some .addDetails ∧
    composeThreadText [message] ≠ "" then composeThreadText [message] else message.text

def alone (message : MessageEnvelope) : MessageEnvelope := { message with text := aloneText message }

section Apart

variable {index : ThreadIndex} {message : MessageEnvelope} {id : AtmMessageId} {parent : AtmMessageId}

theorem ThreadIndex.isTerminal_of_children (h : index.children id = []) : index.isTerminal id = true := by
  rw [isTerminal, decide_eq_true_iff, terminalId_of_childless h]

theorem aloneText_of_parent (hpar : message.parentMessageId = some parent) : aloneText message = message.text := by
  rw [aloneText, hpar]
  exact if_neg (fun h => by cases h.2.1)

variable (huniq : UniqueIds index.messages) (hmem : message ∈ index.messages)
include hmem

theorem ThreadIndex.Apart.children (h : index.Apart) (hid : message.messageId = some id) : index.children id = [] := by
  rw [ThreadIndex.children, filter_eq_nil_iff]
  intro other hother hpar
  exact h message hmem other hother id (of_decide_eq_true hpar) hid

theorem ThreadIndex.Apart.ends (h : index.Apart) : index.ends message = true := by
  rw [ThreadIndex.ends, Option.all_eq_true]
  intro id hid
  exact isTerminal_of_children (h.children hmem hid)

include huniq

theorem ThreadIndex.chainMessages_of_single (hid : message.messageId = some id)
    (hpar : message.parentMessageId = none) (hch : index.children id = []) : index.chainMessages id = [message] := by
  have hf := huniq.message_eq hmem hid
  have hnext : ∀ fuel seen, index.chainLoop fuel seen none = [] := by
    intro fuel seen
    cases fuel <;> rfl
  have hroot : index.rootId id = some id := by
    rw [rootId, rootLoop, hf]
    dsimp only
    rw [hpar]
  rw [chainMessages, hroot]
  dsimp only
  rw [chainLoop, if_neg not_mem_nil, hf, primarySuccessor_eq_none_iff.mpr hch, Option.bind_none, hnext]

/-- A message whose parent is not in the index has no thread. -/
theorem ThreadIndex.chainMessages_of_orphan (hid : message.messageId = some id)
    (hpar : message.parentMessageId = some parent) (hmissing : index.message parent = none) :
    index.chainMessages id = [] := by
  have hnone : ∀ fuel seen, index.rootLoop fuel seen parent = none := by
    intro fuel seen
    cases fuel with
    | zero => rfl
    | succ fuel => rw [rootLoop, hmissing]
  have hroot : index.rootId id = none := by
    rw [rootId, rootLoop, huniq.message_eq hmem hid]
    dsimp only
    rw [hpar]
    dsimp only
    rw [if_neg not_mem_nil, hnone]
  rw [chainMessages, hroot]

theorem ThreadIndex.logicalText_of_single (hpar : message.parentMessageId = none)
    (hch : ∀ id, message.messageId = some id → index.children id = []) :
    index.logicalText message = aloneText message := by
  rw [logicalText, aloneText, hpar]
  cases hid : message.messageId with
  | none => exact (if_neg (fun h => by cases h.1)).symm
  | some id =>
    dsimp only
    rw [chainMessages_of_single huniq hmem hid hpar (hch id hid)]
    by_cases htext : message.threadMode = some .addDetails ∧ composeThreadText [message] ≠ ""
    · rw [if_pos htext, if_pos ⟨rfl, rfl, htext⟩]
    · rw [if_neg htext, if_neg (fun h => htext h.2.2)]

theorem ThreadIndex.Apart.logicalText (h : index.Apart) : index.logicalText message = aloneText message := by
  cases hpar : message.parentMessageId with
  | none => exact logicalText_of_single huniq hmem hpar (fun id hid => h.children hmem hid)
  | some parent =>
    have hmissing : index.message parent = none := by
      cases hf : index.message parent with
      | none => rfl
      | some other =>
        obtain ⟨hother, hid⟩ := message_mem hf
        exact absurd hid (h other hother message hmem parent hpar)
    rw [aloneText_of_parent hpar, ThreadIndex.logicalText]
    cases hid : message.messageId with
    | none => rfl
    | some id =>
      dsimp only
      rw [chainMessages_of_orphan huniq hmem hid hpar hmissing]
      exact if_neg (fun htext => htext.2 rfl)

theorem ThreadIndex.Apart.shown (h : index.Apart) : index.shown message = alone message := by
  rw [ThreadIndex.shown, h.logicalText huniq hmem, alone]

theorem ThreadIndex.Apart.selects (h : index.Apart) (now : IsoTimestamp) (request : MailboxSelectionRequest) :
    index.selects now request message = request.passes now (alone message) := by
  rw [ThreadIndex.selects, h.ends hmem, Bool.true_and, h.shown huniq hmem]

end Apart

end AtmCore
