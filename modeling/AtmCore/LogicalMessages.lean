import AtmCore.Selection
import AtmCore.ThreadViews
import AtmCore.ThreadWalks

/-! What the selection engine makes of a mailbox. Where no id occurs twice, the logical current messages are the
messages that end their threads, each in the bucket of its own state and with the text of its thread. -/

namespace AtmCore

open List Option

def UniqueIds (messages : List MessageEnvelope) : Prop :=
  ∀ message ∈ messages, ∀ other ∈ messages, ∀ id, message.messageId = some id → other.messageId = some id →
    other = message

def candidateIndex (candidates : List MailboxSelectionCandidate) : ThreadIndex :=
  ⟨candidates.map MailboxSelectionCandidate.envelope⟩

/-- A message without an id ends its own thread. -/
def ThreadIndex.ends (index : ThreadIndex) (message : MessageEnvelope) : Bool := message.messageId.all index.isTerminal

/-- The text a message shows at the end of its thread. -/
def ThreadIndex.logicalText (index : ThreadIndex) (message : MessageEnvelope) : String :=
  match message.messageId with
  | none => message.text
  | some id =>
    let text := composeThreadText (index.chainMessages id)
    if message.threadMode = some .addDetails ∧ text ≠ "" then text else message.text

def logicalMessage (index : ThreadIndex) (candidate : MailboxSelectionCandidate × Nat) : ClassifiedMessage where
  sourceIndex := candidate.2
  messageKey := candidate.1.messageKey
  bucket := displayBucketForClass (classifyMessage candidate.1.envelope)
  «class» := classifyMessage candidate.1.envelope
  envelope := { candidate.1.envelope with text := index.logicalText candidate.1.envelope }

theorem effectiveDisplayEnvelope_view (index : ThreadIndex) :
    ThreadView (fun envelope => effectiveDisplayEnvelope envelope index) := by
  constructor <;>
  · intro message
    rw [effectiveDisplayEnvelope]
    split <;> rfl

/-- The display shows another state of a message, not another text. -/
theorem effectiveDisplayEnvelope_text (index : ThreadIndex) (message : MessageEnvelope) :
    (effectiveDisplayEnvelope message index).text = message.text ∧
      (effectiveDisplayEnvelope message index).threadMode = message.threadMode := by
  rw [effectiveDisplayEnvelope]
  split <;> exact ⟨rfl, rfl⟩

variable {index : ThreadIndex} {message : MessageEnvelope} {id : AtmMessageId}

theorem UniqueIds.message_eq (h : UniqueIds index.messages) (hmem : message ∈ index.messages)
    (hid : message.messageId = some id) : index.message id = some message := by
  cases hf : index.message id with
  | none =>
    rw [ThreadIndex.message, find?_eq_none] at hf
    exact absurd (decide_eq_true hid) (hf message (mem_reverse.mpr hmem))
  | some other =>
    obtain ⟨hother, hidOther⟩ := ThreadIndex.message_mem hf
    rw [h message hmem other hother id hid hidOther]

theorem map_zipIdx_fst {α β : Type} (g : α → β) (xs : List α) : xs.zipIdx.map (fun x => g x.1) = xs.map g := by
  have hmap : xs.zipIdx.map (fun x => g x.1) = (xs.zipIdx.map Prod.fst).map g := (List.map_map ..).symm
  rw [hmap, zipIdx_map_fst]

theorem classifyCandidates_envelopes {candidates : List MailboxSelectionCandidate} :
    (classifyCandidates candidates).map ClassifiedMessage.envelope =
      ((candidateIndex candidates).view (fun envelope =>
        effectiveDisplayEnvelope envelope (candidateIndex candidates))).messages := by
  rw [classifyCandidates, List.map_map, ThreadIndex.view, candidateIndex, List.map_map]
  exact map_zipIdx_fst (fun candidate => effectiveDisplayEnvelope candidate.envelope (candidateIndex candidates))
    candidates

section Logical

variable {candidates : List MailboxSelectionCandidate}

/-- The last message of a thread shows the text of the thread. -/
theorem logicalCurrentEnvelope_of_terminal (hf : index.message id = some message)
    (hid : message.messageId = some id) (hterm : index.isTerminal id = true) :
    index.logicalCurrentEnvelope id = some { message with text := index.logicalText message } := by
  rw [ThreadIndex.isTerminal, decide_eq_true_iff] at hterm
  have hlogical : index.logicalText message = if message.threadMode = some .addDetails ∧
      composeThreadText (index.chainMessages id) ≠ "" then composeThreadText (index.chainMessages id)
      else message.text := by
    rw [ThreadIndex.logicalText, hid]
  rw [ThreadIndex.logicalCurrentEnvelope, hterm, bind_eq_bind, bind_some, hf, bind_eq_bind,
    bind_some, hlogical]
  by_cases hmode : message.threadMode = some .addDetails
  · rw [if_pos hmode]
    dsimp only
    by_cases htext : composeThreadText (index.chainMessages id) = ""
    · rw [if_pos htext, if_neg (fun h => h.2 htext)]
      rfl
    · rw [if_neg htext, if_pos ⟨hmode, htext⟩]
      rfl
  · rw [if_neg hmode, if_neg (fun h => hmode h.1)]
    rfl

/-- The last message of a thread, seen in the index of all effective envelopes. -/
theorem logicalCurrentEnvelope_view (huniq : UniqueIds index.messages) (hmem : message ∈ index.messages)
    (hid : message.messageId = some id) (hends : index.ends message = true) :
    (index.view (fun envelope => effectiveDisplayEnvelope envelope index)).logicalCurrentEnvelope id =
      some { message with text := index.logicalText message } := by
  have hview := effectiveDisplayEnvelope_view index
  have hown : effectiveDisplayEnvelope message index = message := by
    rw [effectiveDisplayEnvelope]
    exact if_pos hends
  have hf : (index.view (fun envelope => effectiveDisplayEnvelope envelope index)).message id = some message := by
    rw [hview.message, huniq.message_eq hmem hid, map_some, hown]
  have hterm : (index.view (fun envelope => effectiveDisplayEnvelope envelope index)).isTerminal id = true := by
    rw [hview.isTerminal]
    rw [ThreadIndex.ends, hid] at hends
    exact hends
  have htext : (index.view (fun envelope => effectiveDisplayEnvelope envelope index)).logicalText message =
      index.logicalText message := by
    rw [ThreadIndex.logicalText, ThreadIndex.logicalText, hid]
    dsimp only
    rw [hview.chainMessages, composeThreadText_view (fun message => (effectiveDisplayEnvelope_text index message).1)
      (fun message => (effectiveDisplayEnvelope_text index message).2)]
  rw [logicalCurrentEnvelope_of_terminal hf hid hterm, htext]

theorem withLogicalEnvelope_classifyCandidate (huniq : UniqueIds (candidateIndex candidates).messages)
    {candidate : MailboxSelectionCandidate × Nat} (hmem : candidate.1 ∈ candidates)
    (hends : (candidateIndex candidates).ends candidate.1.envelope = true) :
    withLogicalEnvelope ((candidateIndex candidates).view (fun envelope =>
        effectiveDisplayEnvelope envelope (candidateIndex candidates)))
        (classifyCandidate (candidateIndex candidates) candidate) =
      logicalMessage (candidateIndex candidates) candidate := by
  have hown : effectiveDisplayEnvelope candidate.1.envelope (candidateIndex candidates) = candidate.1.envelope := by
    rw [effectiveDisplayEnvelope]
    exact if_pos hends
  have hclassified : classifyCandidate (candidateIndex candidates) candidate =
      { logicalMessage (candidateIndex candidates) candidate with envelope := candidate.1.envelope } := by
    rw [classifyCandidate, hown]
    rfl
  rw [hclassified, withLogicalEnvelope]
  cases hid : candidate.1.envelope.messageId with
  | none =>
    rw [logicalMessage, ThreadIndex.logicalText, hid]
    rfl
  | some id =>
    rw [bind_some, logicalCurrentEnvelope_view huniq (List.mem_map_of_mem hmem) hid hends]
    rfl

/-- The logical current messages are the messages that end their threads, with the texts of these. -/
theorem logicalCurrentMessages_classifyCandidates (huniq : UniqueIds (candidateIndex candidates).messages) :
    logicalCurrentMessages (classifyCandidates candidates) =
      (candidates.zipIdx.filter (fun candidate => (candidateIndex candidates).ends candidate.1.envelope)).map
        (logicalMessage (candidateIndex candidates)) := by
  have hview := effectiveDisplayEnvelope_view (candidateIndex candidates)
  rw [logicalCurrentMessages, classifyCandidates_envelopes]
  show (List.filter _ (candidates.zipIdx.map (classifyCandidate (candidateIndex candidates)))).map
    (withLogicalEnvelope ((candidateIndex candidates).view _)) = _
  rw [List.filter_map, List.map_map]
  refine (congrArg (List.map _) (filter_congr (fun candidate _ => ?_))).trans
    (map_congr_left (fun candidate hcand => ?_))
  · rw [Function.comp_apply, classifyCandidate, hview.messageId, ThreadIndex.ends]
    congr 1
    funext id
    exact hview.isTerminal _ id
  · obtain ⟨hmem, hend⟩ := mem_filter.mp hcand
    exact withLogicalEnvelope_classifyCandidate huniq (fst_mem_of_mem_zipIdx hmem) hend

end Logical

end AtmCore
