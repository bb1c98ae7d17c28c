import AtmCore.ParentLinks
import AtmCore.Threading
import Mathlib.Data.List.Perm.Subperm

/-! The walks of the thread index over the messages of a mailbox. An index that shows messages of sound threads, though
perhaps not all of them, finds a root only when it shows every message above; the root is then the end of the chain of
parents, and the way back down by successors meets the message the walk began with. -/

namespace AtmCore

open ParentLinks List Option

/-- What a follow-up owes to its parent: neither expires, the sender is the same and so is the acknowledgement. -/
structure Continues (parent child : MessageEnvelope) : Prop where
  sender : parent.from = child.from
  lastingParent : parent.expiresAt = none
  lasting : child.expiresAt = none
  requiresAck : parent.requiresAck = true → child.requiresAck = true

/-- The messages of a mailbox, in the order they were stored, make sound threads. -/
abbrev MailThreads (messages : List MessageEnvelope) : Prop :=
  Threads MessageEnvelope.messageId MessageEnvelope.parentMessageId Continues messages

abbrev threadParent (messages : List MessageEnvelope) : AtmMessageId → Option AtmMessageId :=
  parentOf MessageEnvelope.messageId MessageEnvelope.parentMessageId messages

/-- Two views of one message have it at the same place of its thread. -/
structure SamePlace (shown stored : MessageEnvelope) : Prop where
  messageId : shown.messageId = stored.messageId
  parentMessageId : shown.parentMessageId = stored.parentMessageId
  sender : shown.from = stored.from
  requiresAck : shown.requiresAck = stored.requiresAck
  expiresAt : shown.expiresAt = stored.expiresAt

/-- The first list shows messages of the second one. -/
def Shows (inbox stored : List MessageEnvelope) : Prop := ∀ shown ∈ inbox, ∃ message ∈ stored, SamePlace shown message

/-- The message of the first id names the second one as its parent. -/
def Replies (messages : List MessageEnvelope) (child parent : AtmMessageId) : Prop :=
  ∃ message ∈ messages, message.messageId = some child ∧ message.parentMessageId = some parent

variable {fuel : Nat} {seen : List AtmMessageId}

namespace ThreadIndex

variable {index : ThreadIndex} {stored : List MessageEnvelope} {id rootId : AtmMessageId} {shown root : MessageEnvelope}
  {chain : List AtmMessageId}

theorem message_mem (h : index.message id = some shown) : shown ∈ index.messages ∧ shown.messageId = some id :=
  nodeOf_mem h

theorem exists_stored (hshows : Shows index.messages stored) (h : index.message id = some shown) :
    ∃ message ∈ stored, message.messageId = some id ∧ SamePlace shown message := by
  obtain ⟨hshown, hid⟩ := message_mem h
  obtain ⟨message, hmsg, hplace⟩ := hshows shown hshown
  exact ⟨message, hmsg, hplace.messageId.symm.trans hid, hplace⟩

theorem foldl_later_mem (first : MessageEnvelope) (rest : List MessageEnvelope) :
    rest.foldl (fun best next => if precedes best next then next else best) first ∈ first :: rest := by
  induction rest generalizing first with
  | nil => exact mem_cons_self
  | cons next rest ih =>
    rw [foldl_cons]
    rcases mem_cons.mp (ih (if precedes first next then next else first)) with h | h
    · rw [h]
      split
      · exact mem_cons_of_mem _ mem_cons_self
      · exact mem_cons_self
    · exact mem_cons_of_mem _ (mem_cons_of_mem _ h)

theorem mem_children {message : MessageEnvelope} :
    message ∈ index.children id ↔ message ∈ index.messages ∧ message.parentMessageId = some id := by
  rw [children, mem_filter, decide_eq_true_iff]

theorem primarySuccessor_mem {successor : MessageEnvelope} (h : index.primarySuccessor id = some successor) :
    successor ∈ index.messages ∧ successor.parentMessageId = some id := by
  rw [← mem_children]
  rw [primarySuccessor] at h
  split at h
  · cases h
  · next first rest hch =>
    rw [hch, ← some.inj h]
    exact foldl_later_mem first rest

theorem primarySuccessor_eq_none_iff : index.primarySuccessor id = none ↔ index.children id = [] := by
  rw [primarySuccessor]
  split
  · next hch => simp [hch]
  · next first rest hch => simp [hch]

theorem length_le_messages (hnd : chain.Nodup) (hf : ∀ k ∈ chain, ∃ shown, index.message k = some shown) :
    chain.length ≤ index.messages.length := by
  have hsubset : chain ⊆ index.messages.filterMap MessageEnvelope.messageId := by
    intro k hk
    obtain ⟨shown, hshown⟩ := hf k hk
    obtain ⟨hmem, hid⟩ := message_mem hshown
    exact mem_filterMap.mpr ⟨shown, hmem, hid⟩
  calc chain.length
      _ ≤ (index.messages.filterMap MessageEnvelope.messageId).length := (subperm_of_subset hnd hsubset).length_le
      _ ≤ index.messages.length := length_filterMap_le _ _

section

variable (hthreads : MailThreads stored) (hshows : Shows index.messages stored)
include hthreads hshows

theorem threadParent_of_message (h : index.message id = some shown) :
    threadParent stored id = shown.parentMessageId := by
  obtain ⟨message, hmsg, hid, hplace⟩ := exists_stored hshows h
  rw [threadParent, hthreads.parentOf_eq hmsg hid, hplace.parentMessageId]

/-- The walk upwards ends where the chain of parents ends, and finds all of it. -/
theorem rootLoop_eq_some (hclimb : Climb (threadParent stored) id chain) (hseen : ∀ k ∈ chain, k ∉ seen)
    (h : index.rootLoop fuel seen id = some rootId) :
    (∀ k ∈ chain, ∃ shown, index.message k = some shown) ∧ chain.getLast? = some rootId := by
  fun_induction index.rootLoop fuel seen id generalizing chain with
  | case1 | case2 => cases h
  | case3 fuel seen id shown hmsg hpar =>
    have hup := threadParent_of_message hthreads hshows hmsg
    cases h
    obtain rfl := hclimb.unique (.top (hup.trans hpar))
    refine ⟨fun k hk => ?_, rfl⟩
    obtain rfl := mem_singleton.mp hk
    exact ⟨shown, hmsg⟩
  | case4 fuel seen id shown hmsg parentId hpar hpass => exact absurd hpass (hseen id hclimb.mem_self)
  | case5 fuel seen id shown hmsg parentId hpar hpass ih =>
    have hup := threadParent_of_message hthreads hshows hmsg
    cases hclimb with
    | top htop =>
      rw [hup, hpar] at htop
      cases htop
    | @step _ above rest hstep hab =>
      obtain rfl := some.inj (hstep.symm.trans (hup.trans hpar))
      have hnd := (Climb.step hstep hab).nodup
      have hfr : ∀ k ∈ rest, k ∉ id :: seen := by
        intro k hk hmem
        rcases mem_cons.mp hmem with rfl | hmem
        · exact (nodup_cons.mp hnd).1 hk
        · exact hseen k (mem_cons_of_mem id hk) hmem
      obtain ⟨hf, hlast⟩ := ih hab hfr h
      refine ⟨fun k hk => ?_, ?_⟩
      · rcases mem_cons.mp hk with rfl | hk
        · exact ⟨shown, hmsg⟩
        · exact hf k hk
      · obtain ⟨tail, rfl⟩ := hab.eq_cons
        rw [getLast?_cons_cons]
        exact hlast

/-- The successor of a message is the one that follows it in a thread. -/
theorem primarySuccessor_id {next : AtmMessageId} (hnext : index.message next = some shown)
    (hpar : shown.parentMessageId = some id) :
    (index.primarySuccessor id).bind MessageEnvelope.messageId = some next := by
  obtain ⟨message, hmsg, hid, hplace⟩ := exists_stored hshows hnext
  cases hsucc : index.primarySuccessor id with
  | none =>
    rw [primarySuccessor_eq_none_iff] at hsucc
    have hchild : shown ∈ index.children id := mem_children.mpr ⟨(message_mem hnext).1, hpar⟩
    rw [hsucc] at hchild
    cases hchild
  | some successor =>
    obtain ⟨hmem, hup⟩ := primarySuccessor_mem hsucc
    obtain ⟨other, hother, hplace'⟩ := hshows successor hmem
    have heq : other = message := hthreads.eq_of_parent hother hmsg (hplace'.parentMessageId.symm.trans hup)
      (hplace.parentMessageId.symm.trans hpar)
    rw [bind_some, hplace'.messageId, heq, hid]

/-- The walk downwards meets every message of a path of successors that the index shows. -/
theorem mem_chainLoop {top : AtmMessageId} {path : List AtmMessageId}
    (hpath : (top :: path).IsChain (fun a b => threadParent stored b = some a))
    (hf : ∀ k ∈ top :: path, ∃ shown, index.message k = some shown) (hnd : (top :: path).Nodup)
    (hseen : ∀ k ∈ top :: path, k ∉ seen) (hfuel : path.length < fuel)
    (hlast : (top :: path).getLast? = some id) (h : index.message id = some shown) :
    shown ∈ index.chainLoop fuel seen (some top) := by
  induction path generalizing top fuel seen with
  | nil =>
    obtain ⟨fuel, rfl⟩ := Nat.exists_eq_succ_of_ne_zero (Nat.ne_of_gt (Nat.zero_lt_of_lt hfuel))
    have htop : top = id := some.inj hlast
    rw [chainLoop, if_neg (hseen top mem_cons_self), htop, h]
    exact mem_cons_self
  | cons next path ih =>
    obtain ⟨fuel, rfl⟩ := Nat.exists_eq_succ_of_ne_zero (Nat.ne_of_gt (Nat.zero_lt_of_lt hfuel))
    obtain ⟨first, hfirst⟩ := hf top mem_cons_self
    obtain ⟨second, hsecond⟩ := hf next (mem_cons_of_mem _ mem_cons_self)
    obtain ⟨hlink, hrest⟩ := isChain_cons_cons.mp hpath
    obtain ⟨hfr, hnd⟩ := nodup_cons.mp hnd
    have hpar : second.parentMessageId = some top := (threadParent_of_message hthreads hshows hsecond).symm.trans hlink
    rw [chainLoop, if_neg (hseen top mem_cons_self), hfirst]
    rw [primarySuccessor_id hthreads hshows hsecond hpar]
    refine mem_cons_of_mem _ (ih hrest (fun k hk => hf k (mem_cons_of_mem _ hk)) hnd ?_ ?_ ?_)
    · intro k hk hmem
      rcases mem_cons.mp hmem with rfl | hmem
      · exact hfr hk
      · exact hseen k (mem_cons_of_mem _ hk) hmem
    · rw [length_cons] at hfuel
      omega
    · rw [getLast?_cons_cons] at hlast
      exact hlast

/-- Where the index resolves the root of a message, the chain of the thread has the message. -/
theorem mem_chainMessages (h : index.message id = some shown) (hroot : index.rootId id = some rootId) :
    shown ∈ index.chainMessages id := by
  obtain ⟨message, hmsg, hid, -⟩ := exists_stored hshows h
  obtain ⟨chain, hclimb, -⟩ := hthreads.exists_climb hmsg hid
  obtain ⟨hf, hlast⟩ := rootLoop_eq_some hthreads hshows hclimb (fun _ _ => not_mem_nil) hroot
  have hlen := length_le_messages hclimb.nodup hf
  rw [chainMessages, hroot]
  -- the chain of parents, read from its end
  cases hrev : chain.reverse with
  | nil =>
    obtain ⟨rest, rfl⟩ := hclimb.eq_cons
    simp at hrev
  | cons top path =>
    have htop : top = rootId := by
      rw [← head?_reverse, hrev] at hlast
      exact some.inj hlast
    have hmem : ∀ k ∈ top :: path, k ∈ chain := fun k hk => mem_reverse.mp (hrev ▸ hk)
    have hsize : (top :: path).length = chain.length := by rw [← hrev, length_reverse]
    rw [length_cons] at hsize
    rw [← htop]
    refine mem_chainLoop hthreads hshows ?_ (fun k hk => hf k (hmem k hk)) ?_ (fun _ _ => not_mem_nil) (by omega)
      ?_ h
    · rw [← hrev, isChain_reverse]
      exact hclimb.isChain
    · rw [← hrev]
      exact nodup_reverse.mpr hclimb.nodup
    · obtain ⟨rest, rfl⟩ := hclimb.eq_cons
      rw [← hrev, getLast?_reverse, head?_cons]

theorem rootId_sender (h : index.message id = some shown) (hroot : index.rootId id = some rootId)
    (hmsg : index.message rootId = some root) : root.from = shown.from := by
  obtain ⟨message, hst, hid, hplace⟩ := exists_stored hshows h
  obtain ⟨top, htop, hrootId, hplaceTop⟩ := exists_stored hshows hmsg
  obtain ⟨chain, hclimb, -⟩ := hthreads.exists_climb hst hid
  obtain ⟨-, hlast⟩ := rootLoop_eq_some hthreads hshows hclimb (fun _ _ => not_mem_nil) hroot
  have hsend : top.from = message.from :=
    Threads.along (S := fun a b : MessageEnvelope => a.from = b.from) (fun _ => rfl) (fun _ _ _ h h' => h.trans h')
      (fun _ _ h => h.sender) hthreads hclimb hst hid (mem_of_getLast? hlast) htop hrootId
  rw [hplaceTop.sender, hsend, hplace.sender]

end

theorem terminalLoop_reaches {current last : AtmMessageId} (h : index.terminalLoop fuel seen current = some last) :
    Relation.ReflTransGen (Replies index.messages) last current := by
  fun_induction index.terminalLoop fuel seen current with
  | case1 | case4 => cases h
  | case2 | case3 => rw [some.inj h]
  | case5 fuel seen current hseen successor hsucc next hnext ih =>
    obtain ⟨hmem, hpar⟩ := primarySuccessor_mem hsucc
    exact (ih h).tail ⟨successor, hmem, hnext, hpar⟩

theorem terminalId_of_childless (h : index.children id = []) : index.terminalId id = some id := by
  rw [terminalId, terminalLoop, if_neg not_mem_nil, primarySuccessor_eq_none_iff.mpr h]

/-- Where the walk downwards ends as it began, there is no successor, or a loop. -/
theorem terminalId_eq_self (h : index.terminalId id = some id) :
    index.children id = [] ∨ Relation.TransGen (Replies index.messages) id id := by
  rw [terminalId, terminalLoop, if_neg not_mem_nil] at h
  split at h
  · next hnone => exact .inl (primarySuccessor_eq_none_iff.mp hnone)
  · next successor hsucc =>
    split at h
    · cases h
    · next below hbelow =>
      obtain ⟨hmem, hpar⟩ := primarySuccessor_mem hsucc
      exact .inr (.tail' (terminalLoop_reaches h) ⟨successor, hmem, hbelow, hpar⟩)

theorem isTerminal_iff (hloop : Loopless (Replies index.messages)) :
    index.isTerminal id = true ↔ index.children id = [] := by
  rw [isTerminal, decide_eq_true_iff]
  exact ⟨fun h => (terminalId_eq_self h).resolve_right (hloop id), terminalId_of_childless⟩

end ThreadIndex

end AtmCore
