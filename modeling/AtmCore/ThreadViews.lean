import AtmCore.Threading

/-! Views of the messages of a mailbox. A view may change what a message says and its state, but not its id, its parent
and its time. The walks of the thread index see nothing else, so they go the same way in every view. -/

namespace AtmCore

open List Option Function

/-- A view keeps what the walks of the thread index look at. -/
structure ThreadView (view : MessageEnvelope → MessageEnvelope) : Prop where
  messageId : ∀ message, (view message).messageId = message.messageId
  parentMessageId : ∀ message, (view message).parentMessageId = message.parentMessageId
  timestamp : ∀ message, (view message).timestamp = message.timestamp

def ThreadIndex.view (index : ThreadIndex) (view : MessageEnvelope → MessageEnvelope) : ThreadIndex :=
  ⟨index.messages.map view⟩

namespace ThreadView

variable {view : MessageEnvelope → MessageEnvelope} (h : ThreadView view) (index : ThreadIndex)
include h

theorem message (id : AtmMessageId) : (index.view view).message id = (index.message id).map view := by
  rw [ThreadIndex.message, ThreadIndex.view, ← map_reverse, find?_map, ThreadIndex.message]
  congr 2
  funext message
  rw [comp_apply, h.messageId]

theorem children (id : AtmMessageId) : (index.view view).children id = (index.children id).map view := by
  rw [ThreadIndex.children, ThreadIndex.view, List.filter_map, ThreadIndex.children]
  congr 2
  funext message
  rw [comp_apply, h.parentMessageId]

theorem precedes (left right : MessageEnvelope) :
    ThreadIndex.precedes (view left) (view right) = ThreadIndex.precedes left right := by
  rw [ThreadIndex.precedes, ThreadIndex.precedes, h.timestamp, h.timestamp, h.messageId, h.messageId]

theorem foldl_later (first : MessageEnvelope) (rest : List MessageEnvelope) :
    (rest.map view).foldl (fun best next => if ThreadIndex.precedes best next then next else best) (view first) =
      view (rest.foldl (fun best next => if ThreadIndex.precedes best next then next else best) first) := by
  induction rest generalizing first with
  | nil => rfl
  | cons next rest ih =>
    rw [map_cons, foldl_cons, foldl_cons, h.precedes, ← ih]
    congr 1
    split <;> rfl

theorem primarySuccessor (id : AtmMessageId) :
    (index.view view).primarySuccessor id = (index.primarySuccessor id).map view := by
  rw [ThreadIndex.primarySuccessor, h.children, ThreadIndex.primarySuccessor]
  cases index.children id with
  | nil => rfl
  | cons first rest =>
    rw [map_cons]
    dsimp only
    rw [h.foldl_later]
    rfl

theorem rootLoop (fuel : Nat) (seen : List AtmMessageId) (current : AtmMessageId) :
    (index.view view).rootLoop fuel seen current = index.rootLoop fuel seen current := by
  induction fuel generalizing seen current with
  | zero => rfl
  | succ fuel ih =>
    rw [ThreadIndex.rootLoop, ThreadIndex.rootLoop, h.message]
    cases index.message current with
    | none => rfl
    | some message =>
      dsimp only [map_some]
      rw [h.parentMessageId]
      cases message.parentMessageId with
      | none => rfl
      | some parentId =>
        dsimp only
        rw [ih]

theorem terminalLoop (fuel : Nat) (seen : List AtmMessageId) (current : AtmMessageId) :
    (index.view view).terminalLoop fuel seen current = index.terminalLoop fuel seen current := by
  induction fuel generalizing seen current with
  | zero => rfl
  | succ fuel ih =>
    rw [ThreadIndex.terminalLoop, ThreadIndex.terminalLoop, h.primarySuccessor]
    cases index.primarySuccessor current with
    | none => rfl
    | some successor =>
      dsimp only [map_some]
      rw [h.messageId]
      cases successor.messageId with
      | none => rfl
      | some next =>
        dsimp only
        rw [ih]

theorem chainLoop (fuel : Nat) (seen : List AtmMessageId) (current : Option AtmMessageId) :
    (index.view view).chainLoop fuel seen current = (index.chainLoop fuel seen current).map view := by
  induction fuel generalizing seen current with
  | zero => rfl
  | succ fuel ih =>
    cases current with
    | none => rfl
    | some id =>
      rw [ThreadIndex.chainLoop, ThreadIndex.chainLoop, h.message, h.primarySuccessor]
      split
      · rfl
      · cases index.message id with
        | none => rfl
        | some message =>
          dsimp only [map_some]
          rw [map_cons, ih]
          congr 2
          cases index.primarySuccessor id with
          | none => rfl
          | some successor => rw [map_some, bind_some, bind_some, h.messageId]

variable (id : AtmMessageId)

theorem rootId : (index.view view).rootId id = index.rootId id := by
  rw [ThreadIndex.rootId, ThreadIndex.view, length_map]
  exact h.rootLoop index _ _ _

theorem terminalId : (index.view view).terminalId id = index.terminalId id := by
  rw [ThreadIndex.terminalId, ThreadIndex.view, length_map]
  exact h.terminalLoop index _ _ _

theorem isTerminal : (index.view view).isTerminal id = index.isTerminal id := by
  rw [ThreadIndex.isTerminal, h.terminalId, ThreadIndex.isTerminal]

theorem chainMessages : (index.view view).chainMessages id = (index.chainMessages id).map view := by
  rw [ThreadIndex.chainMessages, h.rootId, ThreadIndex.chainMessages]
  cases index.rootId id with
  | none => rfl
  | some rootId =>
    rw [← h.chainLoop, ThreadIndex.view, length_map]

end ThreadView

/-- A view that also keeps the texts and the modes of the messages keeps the text of a thread. -/
theorem composeThreadText_view {view : MessageEnvelope → MessageEnvelope}
    (htext : ∀ message, (view message).text = message.text)
    (hmode : ∀ message, (view message).threadMode = message.threadMode) (chain : List MessageEnvelope) :
    composeThreadText (chain.map view) = composeThreadText chain := by
  have hstate : contextStart (chain.map view) = contextStart chain := by
    rw [contextStart, contextStart, ← map_reverse, findIdx?_map, length_map]
    congr 2
    funext message
    rw [comp_apply, hmode]
  have htexts : ((chain.map view).drop (contextStart chain)).map (fun message => trim message.text) =
      (chain.drop (contextStart chain)).map (fun message => trim message.text) := by
    rw [← map_drop, List.map_map]
    congr 1
    funext message
    rw [comp_apply, htext]
  rw [composeThreadText, composeThreadText, hstate, htexts]

end AtmCore
