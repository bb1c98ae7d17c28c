import Mathlib.Logic.Relation

/-! Fencing tokens. A lease is held under a generation until it ends; opening it again raises the generation.
A holder presents the generation as its token, and a token is good while the lease is active at exactly
that generation. A token that was good once and is not good any more is never good again. -/

namespace Fencing

structure Lease where
  generation : Nat
  active : Bool
  deriving DecidableEq

/-- One step of a lease that may not exist yet. -/
inductive Step : Option Lease → Option Lease → Prop where
  | absent : Step none none
  | opened : Step none (some ⟨1, true⟩)
  | kept (generation : Nat) {active active' : Bool} (hactive : active' = true → active = true) :
      Step (some ⟨generation, active⟩) (some ⟨generation, active'⟩)
  | reopened (generation : Nat) : Step (some ⟨generation, false⟩) (some ⟨generation + 1, true⟩)

theorem Step.refl (lease : Option Lease) : Step lease lease := by
  cases lease with
  | none => exact .absent
  | some lease => exact .kept lease.generation id

abbrev Evolves := Relation.ReflTransGen Step

/-- The token of a generation is good. -/
def Good (lease : Option Lease) (generation : Nat) : Prop := lease = some ⟨generation, true⟩

/-- The generation is over: a later one was opened, or it ended. -/
def Over (lease : Option Lease) (generation : Nat) : Prop :=
  ∃ current, lease = some current ∧
    (generation < current.generation ∨ (generation = current.generation ∧ current.active = false))

variable {generation : Nat} {after before : Option Lease} {lease : Lease}

theorem Over.not_good {lease : Option Lease} (h : Over lease generation) : ¬ Good lease generation := by
  rintro hgood
  obtain ⟨current, hcur, hover⟩ := h
  obtain rfl := Option.some.inj (hgood.symm.trans hcur)
  rcases hover with hlt | ⟨-, hact⟩
  · exact Nat.lt_irrefl _ hlt
  · cases hact

/-- A lease that has reached a generation, and whose token is not good, is past it. -/
theorem over_of_reached {current : Lease} (hreached : generation ≤ current.generation)
    (hbad : ¬ Good (some current) generation) : Over (some current) generation := by
  refine ⟨current, rfl, ?_⟩
  rcases Nat.lt_or_eq_of_le hreached with hlt | heq
  · exact .inl hlt
  · refine .inr ⟨heq, Bool.eq_false_iff.mpr fun hact => hbad ?_⟩
    obtain ⟨g, active⟩ := current
    exact congrArg some (congrArg₂ Lease.mk heq.symm hact)

theorem Step.over (hstep : Step before after) (h : Over before generation) : Over after generation := by
  obtain ⟨current, hcur, hover⟩ := h
  cases hstep with
  | absent | opened => cases hcur
  | kept current hact =>
    cases hcur
    refine ⟨_, rfl, ?_⟩
    rcases hover with hlt | ⟨heq, hend⟩
    · exact .inl hlt
    · refine .inr ⟨heq, Bool.eq_false_iff.mpr fun hagain => ?_⟩
      exact Bool.eq_false_iff.mp hend (hact hagain)
  | reopened current =>
    cases hcur
    refine ⟨_, rfl, .inl ?_⟩
    rcases hover with hlt | ⟨heq, -⟩
    · exact Nat.lt_succ_of_lt hlt
    · exact heq ▸ Nat.lt_succ_self current

/-- The generation never falls, and a lease never goes away. -/
theorem Step.generation_le (hstep : Step before after) (h : before = some lease) :
    ∃ lease', after = some lease' ∧ lease.generation ≤ lease'.generation := by
  cases hstep with
  | absent | opened => cases h
  | kept generation hact =>
    cases h
    exact ⟨_, rfl, Nat.le_refl _⟩
  | reopened generation =>
    cases h
    exact ⟨_, rfl, Nat.le_succ _⟩

theorem Evolves.over (h : Evolves before after) (hover : Over before generation) : Over after generation := by
  induction h with
  | refl => exact hover
  | tail _ hstep ih => exact hstep.over ih

theorem Evolves.generation_le (h : Evolves before after) (hlease : before = some lease) :
    ∃ lease', after = some lease' ∧ lease.generation ≤ lease'.generation := by
  induction h with
  | refl => exact ⟨lease, hlease, Nat.le_refl _⟩
  | tail _ hstep ih =>
    obtain ⟨middle, hmiddle, hle⟩ := ih
    obtain ⟨lease', hlease', hle'⟩ := hstep.generation_le hmiddle
    exact ⟨lease', hlease', Nat.le_trans hle hle'⟩

theorem Evolves.not_good_again {first second third : Option Lease} (h : Evolves first second)
    (h' : Evolves second third) (hgood : Good first generation) (hbad : ¬ Good second generation) :
    ¬ Good third generation := by
  obtain ⟨current, hcur, hle⟩ := h.generation_le hgood
  rw [hcur] at hbad
  have hover : Over second generation := hcur ▸ over_of_reached hle hbad
  exact (h'.over hover).not_good

end Fencing
