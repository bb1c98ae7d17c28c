import Mathlib.Data.List.Chain
import Mathlib.Data.List.Induction
import Mathlib.Data.List.Nodup
import Mathlib.Logic.Relation

/-! Chains of parents. A partial function `up` gives every node at most one parent. The chain of a node is the list of
nodes from it to one without a parent; a node that has a chain has exactly one, which repeats no node.

Threads are nodes in the order they came. The node that one names as its parent came before it and has no other
successor; a relation says what else a node owes to its parent. Every node of a thread then has a chain, and what the
relation says holds along it. Where a parent may come later, the links may close a loop. -/

namespace ParentLinks

open Relation List Option

variable {κ : Type} {up up' : κ → Option κ} {x y : κ} {xs ys : List κ}

/-- The nodes from `x` upwards, to one without a parent. -/
inductive Climb (up : κ → Option κ) : κ → List κ → Prop where
  | top {x : κ} (h : up x = none) : Climb up x [x]
  | step {x y : κ} {ys : List κ} (h : up x = some y) (hy : Climb up y ys) : Climb up x (x :: ys)

def IsParent (up : κ → Option κ) (x y : κ) : Prop := up x = some y

def Acyclic (up : κ → Option κ) : Prop := ∀ x, ¬ TransGen (IsParent up) x x

section

variable (h : Climb up x xs)
include h

theorem Climb.eq_cons : ∃ rest, xs = x :: rest := by
  cases h with
  | top => exact ⟨[], rfl⟩
  | step _ _ => exact ⟨_, rfl⟩

theorem Climb.mem_self : x ∈ xs := by
  obtain ⟨rest, rfl⟩ := h.eq_cons
  exact mem_cons_self

theorem Climb.unique (h' : Climb up x ys) : xs = ys := by
  induction h generalizing ys with
  | top hx =>
    cases h' with
    | top => rfl
    | step hx' _ => rw [hx] at hx'; cases hx'
  | step hx _ ih =>
    cases h' with
    | top hx' => rw [hx] at hx'; cases hx'
    | step hx' hy' =>
      obtain rfl := some.inj (hx.symm.trans hx')
      rw [ih hy']

theorem Climb.suffix (hy : y ∈ xs) : ∃ ys, Climb up y ys ∧ ys <:+ xs := by
  induction h with
  | top hx =>
    obtain rfl := mem_singleton.mp hy
    exact ⟨_, .top hx, suffix_refl _⟩
  | step hx hrest ih =>
    rcases mem_cons.mp hy with rfl | hy
    · exact ⟨_, .step hx hrest, suffix_refl _⟩
    · obtain ⟨ys, hclimb, hsuffix⟩ := ih hy
      exact ⟨ys, hclimb, hsuffix.trans (suffix_cons _ _)⟩

theorem Climb.nodup : xs.Nodup := by
  induction h with
  | top _ => exact nodup_singleton _
  | @step x y ys hx hrest ih =>
    refine nodup_cons.mpr ⟨fun hmem => ?_, ih⟩
    obtain ⟨zs, hclimb, hsuffix⟩ := hrest.suffix hmem
    have hlen := hsuffix.length_le
    rw [← (Climb.step hx hrest).unique hclimb, length_cons] at hlen
    omega

theorem Climb.congr (heq : ∀ y ∈ xs, up' y = up y) : Climb up' x xs := by
  induction h with
  | top hx => exact .top ((heq _ mem_cons_self).trans hx)
  | step hx _ ih =>
    exact .step ((heq _ mem_cons_self).trans hx) (ih (fun y hy => heq y (mem_cons_of_mem _ hy)))

/-- What is above a node stands in its chain, behind it. -/
theorem Climb.mem_of_above (hy : TransGen (IsParent up) x y) : y ∈ xs.tail := by
  induction hy with
  | single hpar =>
    cases h with
    | top hx => rw [IsParent, hx] at hpar; cases hpar
    | step hx hrest =>
      obtain rfl := some.inj (hx.symm.trans hpar)
      exact hrest.mem_self
  | @tail z y _ hpar ih =>
    obtain ⟨rest, rfl⟩ := h.eq_cons
    obtain ⟨zs, hclimb, hsuffix⟩ := h.suffix (mem_cons_of_mem _ ih)
    cases hclimb with
    | top hz => rw [IsParent, hz] at hpar; cases hpar
    | @step _ w ws hz hrest =>
      obtain rfl := some.inj (hz.symm.trans hpar)
      rcases suffix_cons_iff.mp hsuffix with heq | hsuffix
      · rw [← (List.cons.inj heq).2]
        exact hrest.mem_self
      · exact hsuffix.subset (mem_cons_of_mem _ hrest.mem_self)

end

theorem acyclic_of_climb (h : ∀ x y, up x = some y → ∃ xs, Climb up x xs) : Acyclic up := by
  intro x hab
  obtain ⟨y, hpar⟩ : ∃ y, up x = some y := by
    rcases TransGen.head'_iff.mp hab with ⟨y, hpar, -⟩
    exact ⟨y, hpar⟩
  obtain ⟨xs, hclimb⟩ := h x y hpar
  obtain ⟨rest, rfl⟩ := hclimb.eq_cons
  exact (nodup_cons.mp hclimb.nodup).1 (hclimb.mem_of_above hab)

theorem Climb.isChain (h : Climb up x xs) : xs.IsChain (fun a b => up a = some b) := by
  induction h with
  | top _ => exact .singleton _
  | step hx hrest ih =>
    obtain ⟨rest, rfl⟩ := hrest.eq_cons
    exact .cons_cons hx ih

theorem Climb.up_getLast (h : Climb up x xs) (hlast : xs.getLast? = some y) : up y = none := by
  induction h with
  | top hx =>
    cases hlast
    exact hx
  | step hx hrest ih =>
    obtain ⟨rest, rfl⟩ := hrest.eq_cons
    rw [getLast?_cons_cons] at hlast
    exact ih hlast

section Threads

variable {α : Type} (id parent : α → Option κ) (R : α → α → Prop)

/-- Nodes in the order they came. -/
inductive Threads : List α → Prop where
  | nil : Threads []
  | snoc {nodes : List α} {node : α} (h : Threads nodes)
      (hid : ∃ k, id node = some k ∧ ∀ other ∈ nodes, id other ≠ some k)
      (hparent : ∀ k, parent node = some k → (∀ other ∈ nodes, parent other ≠ some k) ∧
        ∃ above ∈ nodes, id above = some k ∧ R above node) : Threads (nodes ++ [node])

variable {id parent R} {nodes : List α} {node other : α} {k j : κ} {ks : List κ}

namespace Threads

section

variable (h : Threads id parent R nodes)
include h

theorem id_isSome (hnode : node ∈ nodes) : ∃ k, id node = some k := by
  induction h with
  | nil => cases hnode
  | snoc _ hid _ ih =>
    rcases mem_append.mp hnode with hold | hnew
    · exact ih hold
    · obtain rfl := mem_singleton.mp hnew
      exact ⟨hid.choose, hid.choose_spec.1⟩

theorem nodup : nodes.Nodup := by
  induction h with
  | nil => exact nodup_nil
  | snoc _ hid _ ih =>
    obtain ⟨k, hk, hfr⟩ := hid
    refine nodup_append.mpr ⟨ih, nodup_singleton _, fun other hother node hnode heq => ?_⟩
    obtain rfl := mem_singleton.mp hnode
    exact hfr other hother (heq ▸ hk)

theorem eq_of_id (hnode : node ∈ nodes) (hother : other ∈ nodes) (hk : id node = some k)
    (hk' : id other = some k) : node = other := by
  induction h with
  | nil => cases hnode
  | @snoc nodes last _ hid _ ih =>
    obtain ⟨l, hl, hfr⟩ := hid
    rcases mem_append.mp hnode with hold | hnew <;> rcases mem_append.mp hother with hold' | hnew'
    · exact ih hold hold'
    · obtain rfl := mem_singleton.mp hnew'
      exact absurd (hk.trans (hk'.symm.trans hl)) (hfr node hold)
    · obtain rfl := mem_singleton.mp hnew
      exact absurd (hk'.trans (hk.symm.trans hl)) (hfr other hold')
    · rw [mem_singleton.mp hnew, mem_singleton.mp hnew']

theorem exists_parent (hnode : node ∈ nodes) (hk : parent node = some k) :
    ∃ above ∈ nodes, id above = some k ∧ R above node := by
  induction h with
  | nil => cases hnode
  | snoc _ _ hpar ih =>
    rcases mem_append.mp hnode with hold | hnew
    · obtain ⟨above, hab, hid, hrel⟩ := ih hold
      exact ⟨above, mem_append_left _ hab, hid, hrel⟩
    · obtain rfl := mem_singleton.mp hnew
      obtain ⟨-, above, hab, hid, hrel⟩ := hpar k hk
      exact ⟨above, mem_append_left _ hab, hid, hrel⟩

theorem eq_of_parent (hnode : node ∈ nodes) (hother : other ∈ nodes)
    (hk : parent node = some k) (hk' : parent other = some k) : node = other := by
  induction h with
  | nil => cases hnode
  | snoc _ _ hpar ih =>
    rcases mem_append.mp hnode with hold | hnew <;> rcases mem_append.mp hother with hold' | hnew'
    · exact ih hold hold'
    · obtain rfl := mem_singleton.mp hnew'
      exact absurd hk ((hpar k hk').1 node hold)
    · obtain rfl := mem_singleton.mp hnew
      exact absurd hk' ((hpar k hk).1 other hold')
    · rw [mem_singleton.mp hnew, mem_singleton.mp hnew']

end

/-- Nodes may change in place, as long as they keep their ids, their parents and the relation. -/
theorem map_congr {ρ : Type} {rows : List ρ} {f g : ρ → α} (hid : ∀ r ∈ rows, id (g r) = id (f r))
    (hpar : ∀ r ∈ rows, parent (g r) = parent (f r))
    (hrel : ∀ r ∈ rows, ∀ s ∈ rows, R (f r) (f s) → R (g r) (g s)) (h : Threads id parent R (rows.map f)) :
    Threads id parent R (rows.map g) := by
  induction rows using List.reverseRecOn with
  | nil => exact .nil
  | append_singleton rows r ih =>
    rw [map_append, map_singleton] at h ⊢
    have hr : r ∈ rows ++ [r] := mem_append_right _ (mem_singleton_self r)
    have hold : ∀ s ∈ rows, s ∈ rows ++ [r] := fun s hs => mem_append_left _ hs
    generalize hnodes : rows.map f ++ [f r] = nodes at h
    cases h with
    | nil => simp at hnodes
    | @snoc nodes node h hfr hab =>
      obtain ⟨rfl, hnode⟩ := append_inj' hnodes rfl
      obtain rfl := (List.cons.inj hnode).1
      refine .snoc (ih (fun s hs => hid s (hold s hs)) (fun s hs => hpar s (hold s hs))
        (fun s hs t ht => hrel s (hold s hs) t (hold t ht)) h) ?_ (fun k hk => ?_)
      · obtain ⟨k, hk, hnone⟩ := hfr
        refine ⟨k, (hid r hr).trans hk, fun other hother => ?_⟩
        obtain ⟨s, hs, rfl⟩ := List.mem_map.mp hother
        rw [hid s (hold s hs)]
        exact hnone _ (List.mem_map_of_mem hs)
      · obtain ⟨hnone, above, hab, haboveId, hR⟩ := hab k ((hpar r hr).symm.trans hk)
        obtain ⟨s, hs, rfl⟩ := List.mem_map.mp hab
        refine ⟨fun other hother => ?_, g s, List.mem_map_of_mem hs, (hid s (hold s hs)).trans haboveId,
          hrel s (hold s hs) r hr hR⟩
        obtain ⟨t, ht, rfl⟩ := List.mem_map.mp hother
        rw [hpar t (hold t ht)]
        exact hnone _ (List.mem_map_of_mem ht)

end Threads

variable [DecidableEq κ]

variable (id parent) in
/-- The node of an id; a later node displaces an earlier one. -/
def nodeOf (nodes : List α) (k : κ) : Option α := nodes.reverse.find? (fun node => decide (id node = some k))

variable (id parent) in
/-- The parent of the node of an id. -/
def parentOf (nodes : List α) (k : κ) : Option κ := (nodeOf id nodes k).bind parent

theorem nodeOf_mem (h : nodeOf id nodes k = some node) : node ∈ nodes ∧ id node = some k := by
  refine ⟨mem_reverse.mp (mem_of_find?_eq_some h), ?_⟩
  have hf := find?_some h
  exact of_decide_eq_true hf

theorem nodeOf_isSome (hnode : node ∈ nodes) (hid : id node = some k) : ∃ found, nodeOf id nodes k = some found := by
  rw [← isSome_iff_exists, nodeOf, find?_isSome]
  exact ⟨node, mem_reverse.mpr hnode, decide_eq_true hid⟩

theorem nodeOf_append_of_ne (h : id node ≠ some k) : nodeOf id (nodes ++ [node]) k = nodeOf id nodes k := by
  rw [nodeOf, reverse_append, reverse_singleton, singleton_append,
    find?_cons_of_neg (by simpa using h), nodeOf]

namespace Threads

section

variable (h : Threads id parent R nodes)
include h

theorem nodeOf_eq_some_iff :
    nodeOf id nodes k = some node ↔ node ∈ nodes ∧ id node = some k := by
  constructor
  · exact nodeOf_mem
  · rintro ⟨hnode, hk⟩
    obtain ⟨found, hf⟩ := nodeOf_isSome hnode hk
    obtain ⟨hmem, hid⟩ := nodeOf_mem hf
    rw [hf, h.eq_of_id hmem hnode hid hk]

theorem parentOf_eq (hnode : node ∈ nodes) (hk : id node = some k) :
    parentOf id parent nodes k = parent node := by
  rw [parentOf, h.nodeOf_eq_some_iff.mpr ⟨hnode, hk⟩, bind_some]

/-- Every node has a chain, of nodes that are there. -/
theorem exists_climb (hnode : node ∈ nodes) (hk : id node = some k) :
    ∃ ks, Climb (parentOf id parent nodes) k ks ∧ ∀ j ∈ ks, ∃ above ∈ nodes, id above = some j := by
  induction h generalizing node k with
  | nil => cases hnode
  | @snoc nodes last h hid hpar ih =>
    have hall : Threads id parent R (nodes ++ [last]) := .snoc h hid hpar
    have hold : ∀ node k, node ∈ nodes → id node = some k →
        ∃ ks, Climb (parentOf id parent (nodes ++ [last])) k ks ∧
          ∀ j ∈ ks, ∃ above ∈ nodes ++ [last], id above = some j := by
      intro node k hnode hk
      obtain ⟨ks, hclimb, hthere⟩ := ih hnode hk
      refine ⟨ks, hclimb.congr (fun j hj => ?_), fun j hj => ?_⟩
      · obtain ⟨above, hab, hj⟩ := hthere j hj
        obtain ⟨l, hl, hfr⟩ := hid
        have hne : id last ≠ some j := fun hlast => hfr above hab (hj.trans (hlast.symm.trans hl))
        rw [parentOf, nodeOf_append_of_ne hne, parentOf]
      · obtain ⟨above, hab, hj⟩ := hthere j hj
        exact ⟨above, mem_append_left _ hab, hj⟩
    rcases mem_append.mp hnode with hmem | hnew
    · exact hold node k hmem hk
    · obtain rfl := mem_singleton.mp hnew
      cases hup : parent node with
      | none =>
        refine ⟨[k], .top ((hall.parentOf_eq hnode hk).trans hup), fun j hj => ?_⟩
        obtain rfl := mem_singleton.mp hj
        exact ⟨node, hnode, hk⟩
      | some p =>
        obtain ⟨-, above, hab, hp, -⟩ := hpar p hup
        obtain ⟨ks, hclimb, hthere⟩ := hold above p hab hp
        refine ⟨k :: ks, .step ((hall.parentOf_eq hnode hk).trans hup) hclimb, fun j hj => ?_⟩
        rcases mem_cons.mp hj with rfl | hj
        · exact ⟨node, hnode, hk⟩
        · exact hthere j hj

theorem acyclic : Acyclic (parentOf id parent nodes) := by
  refine acyclic_of_climb (fun k p hp => ?_)
  obtain ⟨node, hnode, -⟩ := bind_eq_some_iff.mp hp
  obtain ⟨hmem, hk⟩ := nodeOf_mem hnode
  obtain ⟨ks, hclimb, -⟩ := h.exists_climb hmem hk
  exact ⟨ks, hclimb⟩

end

/-- What holds from a parent to its successor holds along a chain. -/
theorem along {S : α → α → Prop} (hrefl : ∀ x, S x x) (htra : ∀ x y z, S x y → S y z → S x z)
    (hlink : ∀ x y, R x y → S x y) (h : Threads id parent R nodes) (hclimb : Climb (parentOf id parent nodes) k ks)
    (hnode : node ∈ nodes) (hk : id node = some k) (hj : j ∈ ks) (hother : other ∈ nodes)
    (hidOther : id other = some j) : S other node := by
  induction hclimb generalizing node with
  | top _ =>
    obtain rfl := mem_singleton.mp hj
    rw [h.eq_of_id hother hnode hidOther hk]
    exact hrefl node
  | step hup _ ih =>
    rcases mem_cons.mp hj with rfl | hj
    · rw [h.eq_of_id hother hnode hidOther hk]
      exact hrefl node
    · rw [h.parentOf_eq hnode hk] at hup
      obtain ⟨above, hab, hid, hrel⟩ := h.exists_parent hnode hup
      exact htra _ _ _ (ih hab hid hj) (hlink _ _ hrel)

end Threads

end Threads

section Loops

variable {r s : κ → κ → Prop} {a b : κ}

/-- No walk leads back to where it began. -/
def Loopless (r : κ → κ → Prop) : Prop := ∀ x, ¬ TransGen r x x

theorem Loopless.mono (h : Loopless r) (hsub : ∀ x y, s x y → r x y) : Loopless s :=
  fun x hx => h x (TransGen.mono hsub x x hx)

/-- A walk over one more link is a walk without it, or comes to the link and goes on from it. -/
theorem walk_of_link (hback : ¬ ReflTransGen r b a) (h : TransGen (fun x y => r x y ∨ (x = a ∧ y = b)) x y) :
    TransGen r x y ∨ (ReflTransGen r x a ∧ ReflTransGen r b y) := by
  induction h with
  | single hlink =>
    rcases hlink with hlink | ⟨rfl, rfl⟩
    · exact .inl (.single hlink)
    · exact .inr ⟨.refl, .refl⟩
  | tail _ hlink ih =>
    rcases ih with hwalk | ⟨hto, hfrom⟩
    · rcases hlink with hlink | ⟨rfl, rfl⟩
      · exact .inl (hwalk.tail hlink)
      · exact .inr ⟨hwalk.to_reflTransGen, .refl⟩
    · rcases hlink with hlink | ⟨rfl, rfl⟩
      · exact .inr ⟨hto, hfrom.tail hlink⟩
      · exact absurd hfrom hback

theorem Loopless.link (h : Loopless r) (hback : ¬ ReflTransGen r b a) :
    Loopless (fun x y => r x y ∨ (x = a ∧ y = b)) := by
  intro x hx
  rcases walk_of_link hback hx with hwalk | ⟨hto, hfrom⟩
  · exact h x hwalk
  · exact hback (hfrom.trans hto)

/-- A walk that never branches and comes upon a node it has passed comes upon the one it began with. The list has the
nodes passed, the last one first. -/
theorem eq_start_of_mem {passed : List κ} {start : κ} (huniq : ∀ x y z, r x y → r x z → y = z)
    (hwalk : (a :: passed).IsChain r) (hnd : passed.Nodup) (hstart : (a :: passed).getLast? = some start)
    (hmem : a ∈ passed) : a = start := by
  obtain ⟨later, earlier, rfl⟩ := append_of_mem hmem
  cases earlier with
  | nil =>
    rw [← cons_append, getLast?_concat] at hstart
    exact some.inj hstart
  | cons before rest =>
    exfalso
    have hbefore : r a before := (isChain_cons_cons.mp (isChain_cons.mp hwalk).2.right_of_append).1
    cases later with
    | nil =>
      rw [nil_append] at hwalk hnd
      obtain rfl := huniq a _ _ (isChain_cons_cons.mp hwalk).1 hbefore
      exact (nodup_cons.mp hnd).1 mem_cons_self
    | cons last later =>
      rw [cons_append] at hwalk hnd
      obtain rfl := huniq a _ _ (isChain_cons_cons.mp hwalk).1 hbefore
      exact (nodup_cons.mp hnd).1 (by simp)

end Loops

end ParentLinks
