import AtmCore.LogicalMessages

/-! A part of the messages of a mailbox. When some messages go, a message becomes an end if its successor goes, and a
loop that loses a message has no end but the message before it. A message that loses one above it shows its own text,
for the walk to the root finds nothing there. -/

namespace AtmCore

open ParentLinks Relation List Option TransGen

/-- Threads do not branch: an id has one message and a message one successor. -/
structure Unbranched (messages : List MessageEnvelope) : Prop where
  ids : UniqueIds messages
  successors : ∀ message ∈ messages, ∀ other ∈ messages, ∀ id, message.parentMessageId = some id →
    other.parentMessageId = some id → other = message

section Unbranched

variable {messages : List MessageEnvelope} {x y z : AtmMessageId}

theorem Unbranched.parent_eq (h : Unbranched messages) (hy : Replies messages x y) (hz : Replies messages x z) :
    y = z := by
  obtain ⟨message, hmem, hid, hpar⟩ := hy
  obtain ⟨other, hother, hid', hpar'⟩ := hz
  obtain rfl := h.ids message hmem other hother x hid hid'
  exact some.inj (hpar.symm.trans hpar')

theorem Unbranched.loop_above (h : Unbranched messages) (hloop : TransGen (Replies messages) x x)
    (hlink : Replies messages x y) : TransGen (Replies messages) y y := by
  obtain ⟨z, hz, hback⟩ := head'_iff.mp hloop
  obtain rfl := h.parent_eq hlink hz
  exact .tail' hback hlink

theorem loop_below (hloop : TransGen (Replies messages) x x) :
    ∃ y, Replies messages y x ∧ TransGen (Replies messages) y y := by
  obtain ⟨y, hab, hlink⟩ := tail'_iff.mp hloop
  exact ⟨y, hlink, .head' hlink hab⟩

end Unbranched

variable {fuel : Nat} {seen : List AtmMessageId} {current : AtmMessageId} {rootId : AtmMessageId} {fuel' : Nat}
  {successor : MessageEnvelope}

namespace ThreadIndex

variable {index : ThreadIndex} {id : AtmMessageId} {message : MessageEnvelope}

section

variable (h : Unbranched index.messages)
include h

theorem message_eq_some_iff :
    index.message id = some message ↔ message ∈ index.messages ∧ message.messageId = some id :=
  ⟨message_mem, fun hmsg => h.ids.message_eq hmsg.1 hmsg.2⟩

theorem primarySuccessor_eq_some_iff :
    index.primarySuccessor id = some message ↔ message ∈ index.messages ∧ message.parentMessageId = some id := by
  refine ⟨primarySuccessor_mem, fun ⟨hmem, hpar⟩ => ?_⟩
  cases hsucc : index.primarySuccessor id with
  | none =>
    rw [primarySuccessor_eq_none_iff] at hsucc
    have hchild := mem_children.mpr ⟨hmem, hpar⟩
    rw [hsucc] at hchild
    cases hchild
  | some other =>
    obtain ⟨hother, hpar'⟩ := primarySuccessor_mem hsucc
    rw [h.successors message hmem other hother id hpar hpar']

/-- The walk downwards goes round a loop, to where it began. -/
theorem terminalLoop_of_loop {start : AtmMessageId}
    (hloop : TransGen (Replies index.messages) current current)
    (hwalk : (current :: seen).IsChain (Replies index.messages)) (hnd : seen.Nodup)
    (hf : ∀ x ∈ seen, ∃ shown, index.message x = some shown)
    (hstart : (current :: seen).getLast? = some start) (hfuel : index.messages.length + 2 ≤ fuel + seen.length) :
    index.terminalLoop fuel seen current = some start := by
  induction fuel generalizing seen current with
  | zero =>
    have hlen := length_le_messages hnd hf
    omega
  | succ fuel ih =>
    rw [terminalLoop]
    by_cases hmem : current ∈ seen
    · have hone : ∀ x y z, Replies index.messages x y → Replies index.messages x z → y = z := fun _ _ _ => h.parent_eq
      rw [if_pos hmem, eq_start_of_mem hone hwalk hnd hstart hmem]
    · obtain ⟨next, ⟨successor, hsucc, hnext, hpar⟩, hloop'⟩ := loop_below hloop
      obtain ⟨_, ⟨shown, hshown, hid, -⟩, -⟩ := head'_iff.mp hloop
      have hcur : ∃ shown, index.message current = some shown := ⟨shown, (message_eq_some_iff h).mpr ⟨hshown, hid⟩⟩
      rw [if_neg hmem, (primarySuccessor_eq_some_iff h).mpr ⟨hsucc, hpar⟩]
      dsimp only
      rw [hnext]
      refine ih hloop' (isChain_cons_cons.mpr ⟨⟨successor, hsucc, hnext, hpar⟩, hwalk⟩)
        (nodup_cons.mpr ⟨hmem, hnd⟩) (forall_mem_cons.mpr ⟨hcur, hf⟩) ?_ ?_
      · rw [getLast?_cons_cons]
        exact hstart
      · rw [length_cons]
        omega

/-- The end of a thread has no successor, or is on a loop. -/
theorem isTerminal_iff_loop :
    index.isTerminal id = true ↔ index.children id = [] ∨ TransGen (Replies index.messages) id id := by
  rw [isTerminal, decide_eq_true_iff]
  refine ⟨terminalId_eq_self, ?_⟩
  rintro (hnone | hloop)
  · exact terminalId_of_childless hnone
  · exact terminalLoop_of_loop h hloop (isChain_singleton id) nodup_nil (fun x hx => by cases hx) rfl
      (Nat.le_refl _)

end

/-- A message above the given one goes. -/
def LosesAbove (index : ThreadIndex) (keeps : MessageEnvelope → Bool) (id : AtmMessageId) : Prop :=
  ∃ lost ∈ index.messages, keeps lost = false ∧ ∃ above, lost.messageId = some above ∧
    TransGen (Replies index.messages) id above

/-- The messages that stay of an index. -/
def PartOf (keeps : MessageEnvelope → Bool) (part index : ThreadIndex) : Prop :=
  ∀ message, message ∈ part.messages ↔ message ∈ index.messages ∧ keeps message = true

section Part

variable {part : ThreadIndex} {keeps : MessageEnvelope → Bool} {x y : AtmMessageId}

theorem PartOf.unbranched (hpart : PartOf keeps part index) (h : Unbranched index.messages) :
    Unbranched part.messages where
  ids message hmsg other hother := h.ids message ((hpart message).mp hmsg).1 other ((hpart other).mp hother).1
  successors message hmsg other hother :=
    h.successors message ((hpart message).mp hmsg).1 other ((hpart other).mp hother).1

theorem PartOf.replies (hpart : PartOf keeps part index) (hlink : Replies part.messages x y) :
    Replies index.messages x y := by
  obtain ⟨message, hmsg, hid, hpar⟩ := hlink
  exact ⟨message, ((hpart message).mp hmsg).1, hid, hpar⟩

theorem PartOf.children_eq_nil_iff (hpart : PartOf keeps part index) :
    part.children id = [] ↔ ∀ successor ∈ index.children id, keeps successor = false := by
  rw [eq_nil_iff_forall_not_mem]
  constructor
  · intro hnone successor hsucc
    obtain ⟨hmem, hpar⟩ := mem_children.mp hsucc
    by_contra hkeeps
    rw [Bool.not_eq_false] at hkeeps
    exact hnone successor (mem_children.mpr ⟨(hpart successor).mpr ⟨hmem, hkeeps⟩, hpar⟩)
  · intro hgone successor hsucc
    obtain ⟨hmem, hpar⟩ := mem_children.mp hsucc
    obtain ⟨hmem, hkeeps⟩ := (hpart successor).mp hmem
    rw [hgone successor (mem_children.mpr ⟨hmem, hpar⟩)] at hkeeps
    cases hkeeps

variable (hpart : PartOf keeps part index) (h : Unbranched index.messages) (hmem : message ∈ index.messages)
  (hkeeps : keeps message = true) (hid : message.messageId = some id)
include hpart h hmem hkeeps hid

theorem PartOf.mem_of_above (hnone : ¬ index.LosesAbove keeps id) (hab : ReflTransGen (Replies index.messages) id x)
    {other : MessageEnvelope} (hother : other ∈ index.messages) (hx : other.messageId = some x) :
    other ∈ part.messages := by
  rw [hpart]
  refine ⟨hother, ?_⟩
  rcases (reflTransGen_iff_eq_or_transGen.mp hab) with rfl | hab
  · rw [h.ids message hmem other hother x hid hx]
    exact hkeeps
  · by_contra hgoes
    rw [Bool.not_eq_true] at hgoes
    exact hnone ⟨other, hother, hgoes, x, hx, hab⟩

theorem PartOf.message_of_above (hnone : ¬ index.LosesAbove keeps id)
    (hab : ReflTransGen (Replies index.messages) id x) : part.message x = index.message x := by
  ext other
  rw [message_eq_some_iff (hpart.unbranched h), message_eq_some_iff h]
  constructor
  · exact fun ⟨hother, hx⟩ => ⟨((hpart other).mp hother).1, hx⟩
  · exact fun ⟨hother, hx⟩ => ⟨hpart.mem_of_above h hmem hkeeps hid hnone hab hother hx, hx⟩

theorem PartOf.loop_iff : TransGen (Replies part.messages) id id ↔
    TransGen (Replies index.messages) id id ∧ ¬ index.LosesAbove keeps id := by
  constructor
  · intro hloop
    refine ⟨TransGen.mono (fun _ _ => hpart.replies) _ _ hloop, ?_⟩
    have hround : ∀ above, TransGen (Replies index.messages) id above →
      TransGen (Replies part.messages) above above := by
      intro above hwalk
      induction hwalk with
      | single hlink =>
        obtain ⟨y, hy, -⟩ := head'_iff.mp hloop
        rw [h.parent_eq hlink (hpart.replies hy)]
        exact (hpart.unbranched h).loop_above hloop hy
      | tail _ hlink ih =>
        obtain ⟨y, hy, -⟩ := head'_iff.mp ih
        rw [h.parent_eq hlink (hpart.replies hy)]
        exact (hpart.unbranched h).loop_above ih hy
    rintro ⟨lost, hlost, hgoes, above, hab, hwalk⟩
    obtain ⟨_, ⟨other, hother, hother', -⟩, -⟩ := head'_iff.mp (hround above hwalk)
    obtain ⟨hother, hstays⟩ := (hpart other).mp hother
    rw [h.ids lost hlost other hother above hab hother', hgoes] at hstays
    cases hstays
  · rintro ⟨hloop, hnone⟩
    have hwalk : ∀ y, TransGen (Replies index.messages) id y → TransGen (Replies part.messages) id y := by
      intro y hy
      have hlinks : ∀ u v, ReflTransGen (Replies index.messages) id u → Replies index.messages u v →
          Replies part.messages u v := by
        rintro u v hu ⟨other, hother, hotherId, hpar⟩
        exact ⟨other, hpart.mem_of_above h hmem hkeeps hid hnone hu hother hotherId, hotherId, hpar⟩
      induction hy with
      | single hlink => exact .single (hlinks _ _ .refl hlink)
      | tail hu hlink ih => exact ih.tail (hlinks _ _ hu.to_reflTransGen hlink)
    exact hwalk id hloop

end Part

section Walks

variable {part : ThreadIndex} {keeps : MessageEnvelope → Bool}

theorem rootLoop_above (hroot : index.rootLoop fuel seen current = some rootId) :
    ReflTransGen (Replies index.messages) current rootId := by
  fun_induction index.rootLoop fuel seen current with
  | case1 | case2 => cases hroot
  | case3 | case4 => rw [some.inj hroot]
  | case5 fuel seen current message hf parentId hpar hpass ih =>
    obtain ⟨hmem, hid⟩ := message_mem hf
    exact .head ⟨message, hmem, hid, hpar⟩ (ih hroot)

/-- A walk upwards that finds a root has found every message above: the ids it passed are closed under parents. -/
theorem rootLoop_closed (hpart : PartOf keeps part index) (h : Unbranched index.messages) {fuel : Nat}
    {seen : List AtmMessageId} {current : AtmMessageId} (hroot : part.rootLoop fuel seen current = some rootId)
    (hseen : ∀ x ∈ seen, (∃ shown, part.message x = some shown) ∧
      ∀ y, Replies index.messages x y → y ∈ current :: seen) :
    ∃ passed : List AtmMessageId, current ∈ passed ∧ ∀ x ∈ passed, (∃ shown, part.message x = some shown) ∧
      ∀ y, Replies index.messages x y → y ∈ passed := by
  have hown : ∀ {x y message}, part.message x = some message → Replies index.messages x y →
      message.parentMessageId = some y := by
    rintro x y message hf ⟨other, hother, hx, hpar⟩
    obtain ⟨hmem, hid⟩ := message_mem hf
    rwa [h.ids message ((hpart message).mp hmem).1 other hother x hid hx] at hpar
  fun_induction part.rootLoop fuel seen current with
  | case1 | case2 => cases hroot
  | case3 fuel seen current message hf hpar =>
    refine ⟨current :: seen, mem_cons_self, fun x hx => ?_⟩
    rcases mem_cons.mp hx with rfl | hx
    · refine ⟨⟨message, hf⟩, fun y hy => ?_⟩
      cases hpar.symm.trans (hown hf hy)
    · exact hseen x hx
  | case4 fuel seen current message hf parentId hpar hpass =>
    refine ⟨seen, hpass, fun x hx => ⟨(hseen x hx).1, fun y hy => ?_⟩⟩
    rcases mem_cons.mp ((hseen x hx).2 y hy) with rfl | hy
    · exact hpass
    · exact hy
  | case5 fuel seen current message hf parentId hpar hpass ih =>
    have hup : ∀ y, Replies index.messages current y → y = parentId :=
      fun y hy => some.inj ((hown hf hy).symm.trans hpar)
    obtain ⟨passed, hparentIn, hcl⟩ := ih hroot (fun x hx => by
      rcases mem_cons.mp hx with rfl | hx
      · refine ⟨⟨message, hf⟩, fun y hy => ?_⟩
        rw [hup y hy]
        exact mem_cons_self
      · exact ⟨(hseen x hx).1, fun y hy => mem_cons_of_mem _ ((hseen x hx).2 y hy)⟩)
    refine ⟨current :: passed, mem_cons_self, fun x hx => ?_⟩
    rcases mem_cons.mp hx with rfl | hx
    · refine ⟨⟨message, hf⟩, fun y hy => ?_⟩
      rw [hup y hy]
      exact mem_cons_of_mem _ hparentIn
    · exact ⟨(hcl x hx).1, fun y hy => mem_cons_of_mem _ ((hcl x hx).2 y hy)⟩

/-- A message that loses one above it has no root. -/
theorem PartOf.rootId_of_losesAbove (hpart : PartOf keeps part index) (h : Unbranched index.messages)
    (hlost : index.LosesAbove keeps id) : part.rootId id = none := by
  cases hroot : part.rootId id with
  | none => rfl
  | some rootId =>
    exfalso
    obtain ⟨passed, hmem, hcl⟩ := rootLoop_closed hpart h hroot (fun x hx => by cases hx)
    obtain ⟨lost, hlost, hgoes, above, hab, hwalk⟩ := hlost
    have hpass : ∀ x, TransGen (Replies index.messages) id x → x ∈ passed := by
      intro x hx
      induction hx with
      | single hlink => exact (hcl id hmem).2 _ hlink
      | tail _ hlink ih => exact (hcl _ ih).2 _ hlink
    obtain ⟨shown, hshown⟩ := (hcl above (hpass above hwalk)).1
    obtain ⟨hshown, hid⟩ := message_mem hshown
    obtain ⟨hshown, hstays⟩ := (hpart shown).mp hshown
    rw [h.ids lost hlost shown hshown above hab hid, hgoes] at hstays
    cases hstays

/-- Two indices that find the same messages above an id walk up from it alike, each with the fuel it has. -/
theorem rootLoop_congr
    (hsame : ∀ x, ReflTransGen (Replies index.messages) current x → part.message x = index.message x)
    (hnd : seen.Nodup) (hf : ∀ x ∈ seen, ∃ shown, part.message x = some shown ∧ index.message x = some shown)
    (hfuel : part.messages.length + 1 ≤ fuel + seen.length)
    (hfuel' : index.messages.length + 1 ≤ fuel' + seen.length) :
    part.rootLoop fuel seen current = index.rootLoop fuel' seen current := by
  induction fuel generalizing fuel' seen current with
  | zero =>
    have hlen := length_le_messages hnd (fun x hx => (hf x hx).imp (fun _ => And.left))
    omega
  | succ fuel ih =>
    cases fuel' with
    | zero =>
      have hlen := length_le_messages hnd (fun x hx => (hf x hx).imp (fun _ => And.right))
      omega
    | succ fuel' =>
      rw [rootLoop, rootLoop, hsame current .refl]
      split
      · rfl
      · next message hcur =>
        split
        · rfl
        · next parentId hpar =>
          by_cases hpass : current ∈ seen
          · rw [if_pos hpass, if_pos hpass]
          · obtain ⟨hmem, hid⟩ := message_mem hcur
            rw [if_neg hpass, if_neg hpass]
            refine ih (fun x hx => hsame x (hx.head ⟨message, hmem, hid, hpar⟩))
              (nodup_cons.mpr ⟨hpass, hnd⟩) (forall_mem_cons.mpr
                ⟨⟨message, (hsame current .refl).trans hcur, hcur⟩, hf⟩) ?_ ?_ <;>
              rw [length_cons] <;> omega

/-- Two indices that have the same messages and successors of some ids, which the successors do not leave, walk down
alike. -/
theorem chainLoop_congr {on : AtmMessageId → Prop} (hmsg : ∀ x, on x → part.message x = index.message x)
    (hsucc : ∀ x, on x → part.primarySuccessor x = index.primarySuccessor x)
    (hon : ∀ x y, on x → (index.primarySuccessor x).bind MessageEnvelope.messageId = some y → on y)
    {current : Option AtmMessageId} (hcur : ∀ x, current = some x → on x) (hnd : seen.Nodup)
    (hf : ∀ x ∈ seen, ∃ shown, part.message x = some shown ∧ index.message x = some shown)
    (hfuel : part.messages.length + 1 ≤ fuel + seen.length)
    (hfuel' : index.messages.length + 1 ≤ fuel' + seen.length) :
    part.chainLoop fuel seen current = index.chainLoop fuel' seen current := by
  induction fuel generalizing fuel' seen current with
  | zero =>
    have hlen := length_le_messages hnd (fun x hx => (hf x hx).imp (fun _ => And.left))
    omega
  | succ fuel ih =>
    cases fuel' with
    | zero =>
      have hlen := length_le_messages hnd (fun x hx => (hf x hx).imp (fun _ => And.right))
      omega
    | succ fuel' =>
      cases current with
      | none => rfl
      | some id =>
        have hid := hcur id rfl
        rw [chainLoop, chainLoop]
        by_cases hpass : id ∈ seen
        · rw [if_pos hpass, if_pos hpass]
        · rw [if_neg hpass, if_neg hpass, hmsg id hid, hsucc id hid]
          split
          · rfl
          · next message hshown =>
            congr 1
            refine ih (fun x hx => hon id x hid hx) (nodup_cons.mpr ⟨hpass, hnd⟩)
              (forall_mem_cons.mpr ⟨⟨message, (hmsg id hid).trans hshown, hshown⟩, hf⟩) ?_ ?_ <;>
              rw [length_cons] <;> omega

/-- The successor of a message above the end of a thread is the end, or above it. -/
theorem above_of_successor (h : Unbranched index.messages) (hid : message.messageId = some id)
    (hends : index.ends message = true) {x : AtmMessageId} (hab : ReflTransGen (Replies index.messages) id x)
    (hsucc : successor ∈ index.messages) (hpar : successor.parentMessageId = some x) :
    ∃ y, successor.messageId = some y ∧ ReflTransGen (Replies index.messages) id y := by
  have honly : ∀ y, Replies index.messages y x → successor.messageId = some y := by
    rintro y ⟨other, hother, hy, hpar'⟩
    rw [← h.successors successor hsucc other hother x hpar hpar']
    exact hy
  rcases ReflTransGen.cases_tail hab with rfl | ⟨y, hy, hlink⟩
  · rw [ThreadIndex.ends, hid, all_some, isTerminal_iff_loop h] at hends
    rcases hends with hchildless | hloop
    · have hchild := mem_children.mpr ⟨hsucc, hpar⟩
      rw [hchildless] at hchild
      cases hchild
    · obtain ⟨y, hy, hlink⟩ := tail'_iff.mp hloop
      exact ⟨y, honly y hlink, hy⟩
  · exact ⟨y, honly y hlink, hy⟩

variable (hpart : PartOf keeps part index) (h : Unbranched index.messages) (hmem : message ∈ index.messages)
  (hkeeps : keeps message = true) (hid : message.messageId = some id)
include hpart h hmem hkeeps hid

/-- Where nothing above the end of a thread goes, its thread stays as it is. -/
theorem PartOf.chainMessages_of_above (hnone : ¬ index.LosesAbove keeps id) (hends : index.ends message = true) :
    part.chainMessages id = index.chainMessages id := by
  have hroot : part.rootId id = index.rootId id :=
    rootLoop_congr (fun _ hab => hpart.message_of_above h hmem hkeeps hid hnone hab) nodup_nil
      (fun x hx => by cases hx) (Nat.le_refl _) (Nat.le_refl _)
  rw [chainMessages, chainMessages, hroot]
  cases hrootId : index.rootId id with
  | none => rfl
  | some rootId =>
    have hsucc : ∀ x, ReflTransGen (Replies index.messages) id x →
        part.primarySuccessor x = index.primarySuccessor x := by
      intro x hab
      ext successor
      rw [primarySuccessor_eq_some_iff (hpart.unbranched h), primarySuccessor_eq_some_iff h]
      constructor
      · rintro ⟨hsucc, hpar⟩
        exact ⟨((hpart successor).mp hsucc).1, hpar⟩
      · rintro ⟨hsucc, hpar⟩
        obtain ⟨y, hy, hab'⟩ := above_of_successor h hid hends hab hsucc hpar
        exact ⟨hpart.mem_of_above h hmem hkeeps hid hnone hab' hsucc hy, hpar⟩
    refine chainLoop_congr (fun x => hpart.message_of_above h hmem hkeeps hid hnone) hsucc ?_ ?_ nodup_nil
      (fun x hx => by cases hx) (Nat.le_refl _) (Nat.le_refl _)
    · intro x y hab hnext
      obtain ⟨successor, hsucceeds, hy⟩ := bind_eq_some_iff.mp hnext
      obtain ⟨hsucc, hpar⟩ := primarySuccessor_mem hsucceeds
      obtain ⟨z, hz, hab'⟩ := above_of_successor h hid hends hab hsucc hpar
      rw [some.inj (hy.symm.trans hz)]
      exact hab'
    · intro x hx
      rw [← some.inj hx]
      exact rootLoop_above hrootId

theorem PartOf.logicalText_of_above (hnone : ¬ index.LosesAbove keeps id) (hends : index.ends message = true) :
    part.logicalText message = index.logicalText message := by
  rw [logicalText, logicalText, hid]
  dsimp only
  rw [hpart.chainMessages_of_above h hmem hkeeps hid hnone hends]

omit hmem hkeeps in
theorem PartOf.logicalText_of_losesAbove (hlost : index.LosesAbove keeps id) :
    part.logicalText message = message.text := by
  have hnone : composeThreadText (part.chainMessages id) = "" := by
    rw [chainMessages, hpart.rootId_of_losesAbove h hlost]
    rfl
  rw [logicalText, hid]
  dsimp only
  rw [hnone, if_neg (fun hboth => hboth.2 rfl)]

end Walks

/-- What a message that stays needs for its place and its text to stay, too. Its successor stays, if it is on no loop.
Where a loop it is on loses a message, that is the successor, so that the message ends what is left. Where a message
above it goes, its text is its own. -/
structure Undisturbed (index : ThreadIndex) (keeps : MessageEnvelope → Bool) (message : MessageEnvelope) : Prop where
  successor : ∀ id, message.messageId = some id → ∀ successor ∈ index.children id, keeps successor = false →
    TransGen (Replies index.messages) id id
  loop : ∀ id, message.messageId = some id → TransGen (Replies index.messages) id id → index.LosesAbove keeps id →
    ∃ successor ∈ index.children id, keeps successor = false
  text : ∀ id, message.messageId = some id → index.ends message = true → index.LosesAbove keeps id →
    index.logicalText message = message.text

section Undisturbed

variable {part : ThreadIndex} {keeps : MessageEnvelope → Bool} (hpart : PartOf keeps part index)
  (h : Unbranched index.messages) (hmem : message ∈ index.messages) (hkeeps : keeps message = true)
include hpart h hmem hkeeps

omit hpart hmem hkeeps in
theorem successors_go (hsucc : successor ∈ index.children id)
    (hgoes : keeps successor = false) : ∀ other ∈ index.children id, keeps other = false := by
  intro other hother
  obtain ⟨hsucc, hpar⟩ := mem_children.mp hsucc
  obtain ⟨hother, hpar'⟩ := mem_children.mp hother
  rw [h.successors successor hsucc other hother id hpar hpar']
  exact hgoes

theorem PartOf.ends_iff (hid : message.messageId = some id) : part.ends message = true ↔
    (∀ successor ∈ index.children id, keeps successor = false) ∨
      (TransGen (Replies index.messages) id id ∧ ¬ index.LosesAbove keeps id) := by
  rw [ends, hid, all_some, isTerminal_iff_loop (hpart.unbranched h), hpart.children_eq_nil_iff,
    hpart.loop_iff h hmem hkeeps hid]

/-- Exactly the undisturbed messages keep their place and their text. -/
theorem undisturbed_iff : index.Undisturbed keeps message ↔ (part.ends message = true ↔ index.ends message = true) ∧
      (index.ends message = true → part.logicalText message = index.logicalText message) := by
  cases hid : message.messageId with
  | none =>
    have hno : ∀ id, message.messageId ≠ some id := by simp [hid]
    refine iff_of_true ⟨fun id h => absurd h (hno id), fun id h => absurd h (hno id), fun id h => absurd h (hno id)⟩ ?_
    rw [ends, ends, logicalText, logicalText, hid]
    exact ⟨Iff.rfl, fun _ => rfl⟩
  | some id =>
    have hidx : index.ends message = true ↔ index.children id = [] ∨ TransGen (Replies index.messages) id id := by
      rw [ends, hid, all_some, isTerminal_iff_loop h]
    rw [hpart.ends_iff h hmem hkeeps hid]
    constructor
    · intro hstill
      refine ⟨?_, fun hends => ?_⟩
      · rw [hidx]
        constructor
        · rintro (hgone | ⟨hloop, -⟩)
          · by_cases hnone : index.children id = []
            · exact .inl hnone
            · obtain ⟨successor, hsucc⟩ := exists_mem_of_ne_nil _ hnone
              exact .inr (hstill.successor id hid successor hsucc (hgone successor hsucc))
          · exact .inr hloop
        · rintro (hnone | hloop)
          · rw [hnone]
            exact .inl (fun successor hsucc => by cases hsucc)
          · by_cases hlost : index.LosesAbove keeps id
            · obtain ⟨successor, hsucc, hgoes⟩ := hstill.loop id hid hloop hlost
              exact .inl (successors_go h hsucc hgoes)
            · exact .inr ⟨hloop, hlost⟩
      · by_cases hlost : index.LosesAbove keeps id
        · rw [hpart.logicalText_of_losesAbove h hid hlost, hstill.text id hid hends hlost]
        · exact hpart.logicalText_of_above h hmem hkeeps hid hlost hends
    · rintro ⟨hplace, htext⟩
      have hsame : ∀ {id'}, message.messageId = some id' → id' = id :=
        fun hid' => some.inj (hid'.symm.trans hid)
      refine ⟨fun id' hid' successor hsucc hgoes => ?_, fun id' hid' hloop hlost => ?_,
        fun id' hid' hends hlost => ?_⟩
      · obtain rfl := hsame hid'
        rcases hidx.mp (hplace.mp (.inl (successors_go h hsucc hgoes))) with hnone | hloop
        · rw [hnone] at hsucc
          cases hsucc
        · exact hloop
      · obtain rfl := hsame hid'
        rcases hplace.mpr (hidx.mpr (.inr hloop)) with hgone | ⟨-, hnone⟩
        · obtain ⟨y, ⟨successor, hsucc, -, hpar⟩, -⟩ := loop_below hloop
          have hchild := mem_children.mpr ⟨hsucc, hpar⟩
          exact ⟨successor, hchild, hgone successor hchild⟩
        · exact absurd hlost hnone
      · obtain rfl := hsame hid'
        rw [← htext hends, hpart.logicalText_of_losesAbove h hid hlost]

end Undisturbed

end ThreadIndex

end AtmCore
