import Mathlib.Data.List.Destutter
import Mathlib.Data.List.Nodup
import Mathlib.Logic.Relation

/-! A queue that hands over at least once. Items are accepted one after the other; the first one that is not confirmed
may be applied, and applied again, until an application of it is confirmed and the next item has its turn. What has been
applied, with immediate repetitions removed, is then the beginning of what was accepted. -/

namespace Relay

open Relation List Option

variable {α : Type} {a : α} {l : List α}

section Repetitions

variable [DecidableEq α]

theorem destutter'_concat {b : α} : (l ++ [a]).destutter' (· ≠ ·) b =
    if (b :: l).getLast? = some a then l.destutter' (· ≠ ·) b else l.destutter' (· ≠ ·) b ++ [a] := by
  induction l generalizing b with
  | nil =>
    rw [nil_append, destutter'_singleton, destutter'_nil, getLast?_singleton]
    by_cases h : b = a
    · rw [if_neg (fun hne => hne h), if_pos (congrArg some h)]
    · rw [if_pos h, if_neg (fun heq => h (some.inj heq))]
      rfl
  | cons c l ih =>
    rw [cons_append, getLast?_cons_cons]
    by_cases h : b = c
    · obtain rfl := h
      rw [destutter'_cons_neg _ (fun hne => hne rfl), destutter'_cons_neg _ (fun hne => hne rfl), ih]
    · rw [destutter'_cons_pos _ h, destutter'_cons_pos _ h, ih]
      split <;> rfl

/-- One more item repeats the last one or comes behind the others. -/
theorem destutter_concat : (l ++ [a]).destutter (· ≠ ·) =
    if l.getLast? = some a then l.destutter (· ≠ ·) else l.destutter (· ≠ ·) ++ [a] := by
  cases l with
  | nil => rfl
  | cons b l =>
    rw [cons_append, destutter_cons', destutter_cons']
    exact destutter'_concat

theorem getLast?_destutter : (l.destutter (· ≠ ·)).getLast? = l.getLast? := by
  induction l using List.reverseRecOn with
  | nil => rfl
  | append_singleton l a ih =>
    rw [destutter_concat, getLast?_concat]
    split
    · next h => rw [ih, h]
    · exact getLast?_concat ..

theorem mem_destutter_of_mem (h : a ∈ l) : a ∈ l.destutter (· ≠ ·) := by
  induction l using List.reverseRecOn with
  | nil => cases h
  | append_singleton l b ih =>
    rw [destutter_concat]
    rcases mem_append.mp h with hmem | hmem
    · split
      · exact ih hmem
      · exact mem_append_left _ (ih hmem)
    · obtain rfl := mem_singleton.mp hmem
      split
      · next hlast => exact ih (mem_of_getLast? hlast)
      · exact mem_append_right _ mem_cons_self

end Repetitions

/-- What was accepted, how much of it is confirmed, and what was applied. -/
structure State (α : Type) where
  accepted : List α
  confirmed : Nat
  applied : List α

inductive Step : State α → State α → Prop where
  | accept {s : State α} {a : α} (hfresh : a ∉ s.accepted) : Step s { s with accepted := s.accepted ++ [a] }
  | apply {s : State α} {a : α} (hturn : s.accepted[s.confirmed]? = some a) :
      Step s { s with applied := s.applied ++ [a] }
  | confirm {s : State α} {a : α} (hturn : s.accepted[s.confirmed]? = some a) (hlast : s.applied.getLast? = some a) :
      Step s { s with confirmed := s.confirmed + 1 }

/-- All confirmed items were applied, in their order, and possibly the one that has its turn. -/
structure Sound [DecidableEq α] (s : State α) : Prop where
  nodup : s.accepted.Nodup
  confirmed : s.confirmed ≤ s.accepted.length
  applied : s.applied.destutter (· ≠ ·) = s.accepted.take s.confirmed ∨
    ∃ a, s.accepted[s.confirmed]? = some a ∧ s.applied.getLast? = some a ∧
      s.applied.destutter (· ≠ ·) = s.accepted.take s.confirmed ++ [a]

section Sound

theorem take_succ_of_turn {n : Nat} (h : l[n]? = some a) : l.take (n + 1) = l.take n ++ [a] := by
  rw [take_add_one, h]
  rfl

/-- The item that has its turn is not among the confirmed ones. -/
theorem not_mem_take_of_turn {n : Nat} (hnd : l.Nodup) (h : l[n]? = some a) : a ∉ l.take n := by
  have hsucc : (l.take n ++ [a]).Nodup := by
    rw [← take_succ_of_turn h]
    exact hnd.sublist (take_sublist _ _)
  intro hmem
  exact nodup_append.mp hsucc |>.2.2 a hmem a mem_cons_self rfl

variable [DecidableEq α] {s s' : State α}

theorem Sound.accept (h : Sound s) (hfr : a ∉ s.accepted) : Sound { s with accepted := s.accepted ++ [a] } := by
  have htake : (s.accepted ++ [a]).take s.confirmed = s.accepted.take s.confirmed :=
    take_append_of_le_length h.confirmed
  refine ⟨?_, ?_, ?_⟩
  · dsimp only
    rw [← concat_eq_append]
    exact h.nodup.concat hfr
  · rw [length_append]
    exact Nat.le_trans h.confirmed (Nat.le_add_right _ _)
  · dsimp only
    rw [htake]
    rcases h.applied with heq | ⟨b, hturn, hlast, heq⟩
    · exact .inl heq
    · refine .inr ⟨b, ?_, hlast, heq⟩
      rw [getElem?_append_left (List.getElem?_eq_some_iff.mp hturn).1, hturn]

theorem Sound.apply (h : Sound s) (hturn : s.accepted[s.confirmed]? = some a) :
    Sound { s with applied := s.applied ++ [a] } := by
  refine ⟨h.nodup, h.confirmed, .inr ⟨a, hturn, getLast?_concat .., ?_⟩⟩
  rw [destutter_concat]
  rcases h.applied with heq | ⟨b, hturn', hlast, heq⟩
  · -- the last item that was applied is confirmed, so it is another one
    have hother : s.applied.getLast? ≠ some a := by
      rw [← getLast?_destutter, heq]
      exact fun hlast => not_mem_take_of_turn h.nodup hturn (mem_of_getLast? hlast)
    rw [if_neg hother, heq]
  · obtain rfl := some.inj (hturn.symm.trans hturn')
    rw [if_pos hlast, heq]

theorem Sound.confirm (h : Sound s) (hturn : s.accepted[s.confirmed]? = some a)
    (hlast : s.applied.getLast? = some a) : Sound { s with confirmed := s.confirmed + 1 } := by
  refine ⟨h.nodup, (List.getElem?_eq_some_iff.mp hturn).1, .inl ?_⟩
  rw [take_succ_of_turn hturn]
  rcases h.applied with heq | ⟨b, hturn', -, heq⟩
  · rw [← getLast?_destutter, heq] at hlast
    exact absurd (mem_of_getLast? hlast) (not_mem_take_of_turn h.nodup hturn)
  · obtain rfl := some.inj (hturn.symm.trans hturn')
    exact heq

theorem Step.sound (hstep : Step s s') (h : Sound s) : Sound s' := by
  cases hstep with
  | accept hfr => exact h.accept hfr
  | apply hturn => exact h.apply hturn
  | confirm hturn hlast => exact h.confirm hturn hlast

theorem Sound.run (h : Sound s) (hrun : ReflTransGen Step s s') : Sound s' := by
  induction hrun with
  | refl => exact h
  | tail _ hstep ih => exact hstep.sound ih

/-- What was applied, with immediate repetitions removed, is the beginning of what was accepted. -/
theorem Sound.applied_prefix (h : Sound s) : s.applied.destutter (· ≠ ·) <+: s.accepted := by
  rcases h.applied with heq | ⟨a, hturn, -, heq⟩
  · rw [heq]
    exact take_prefix _ _
  · rw [heq, ← take_succ_of_turn hturn]
    exact take_prefix _ _

/-- What has its turn and was applied is what was applied last. -/
theorem Sound.last_of_turn (h : Sound s) (hturn : s.accepted[s.confirmed]? = some a) (hmem : a ∈ s.applied) :
    s.applied.getLast? = some a := by
  rcases h.applied with heq | ⟨b, hturn', hlast, -⟩
  · exact absurd (heq ▸ mem_destutter_of_mem hmem) (not_mem_take_of_turn h.nodup hturn)
  · obtain rfl := some.inj (hturn.symm.trans hturn')
    exact hlast

end Sound

end Relay
