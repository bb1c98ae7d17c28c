import Mathlib.Logic.Basic
import Mathlib.Data.List.Forall2

/-! Pre- and postconditions for code that returns or fails. `Ensures E Q x` says that `x` fails only with errors in `E`
and that what it returns satisfies `Q`; the rules follow the shape of the code. `Agrees R x y` is about two runs side by
side: both fail with the same error, or both return results related by `R`. -/

namespace Fallible

open List

variable {ε α β : Type} {E : ε → Prop} {P : α → Prop} {P' Q R : β → Prop}
  {x : Except ε β} {f : α → Except ε β} {e : ε} {xs : List α} {ys : List β} {b : β}

theorem bind_eq_ok {x : Except ε α} : (x >>= f) = .ok b ↔ ∃ a, x = .ok a ∧ f a = .ok b := by
  cases x <;> simp [bind, Except.bind]

theorem bind_eq_error {x : Except ε α} : (x >>= f) = .error e ↔ x = .error e ∨ ∃ a, x = .ok a ∧ f a = .error e := by
  cases x <;> simp [bind, Except.bind]

@[simp] theorem bind_ok {a : α} : ((.ok a : Except ε α) >>= f) = f a := rfl

@[simp] theorem bind_error : ((.error e : Except ε α) >>= f) = .error e := rfl

theorem mapM_eq_error (h : xs.mapM f = .error e) : ∃ x ∈ xs, f x = .error e := by
  induction xs with
  | nil => cases h
  | cons x xs ih =>
    rw [mapM_cons] at h
    rcases bind_eq_error.mp h with h | ⟨_, -, h⟩
    · exact ⟨x, mem_cons_self, h⟩
    · rcases bind_eq_error.mp h with h | ⟨_, -, h⟩
      · obtain ⟨y, hy, hf⟩ := ih h
        exact ⟨y, mem_cons_of_mem x hy, hf⟩
      · cases h

theorem mapM_eq_ok_map {g : α → β} (h : ∀ x ∈ xs, f x = .ok (g x)) : xs.mapM f = .ok (xs.map g) := by
  induction xs with
  | nil => rfl
  | cons x xs ih =>
    rw [mapM_cons, h x mem_cons_self, bind_ok, ih (fun y hy => h y (mem_cons_of_mem x hy)), bind_ok]
    rfl

theorem mapM_eq_ok_iff : xs.mapM f = .ok ys ↔ List.Forall₂ (fun x y => f x = .ok y) xs ys := by
  induction xs generalizing ys with
  | nil => simp [pure, Except.pure, eq_comm]
  | cons x xs ih =>
    simp only [mapM_cons, bind_eq_ok, List.forall₂_cons_left_iff]
    constructor
    · rintro ⟨y, hy, zs, hzs, h⟩
      exact ⟨y, zs, hy, ih.mp hzs, (Except.ok.inj h).symm⟩
    · rintro ⟨y, zs, hy, hzs, rfl⟩
      exact ⟨y, hy, zs, ih.mpr hzs, rfl⟩

theorem exists_ok_of_mapM (h : xs.mapM f = .ok ys) {x : α} (hx : x ∈ xs) : ∃ y, f x = .ok y := by
  have hforall := mapM_eq_ok_iff.mp h
  induction hforall with
  | nil => cases hx
  | cons hfirst hrest ih =>
    rcases mem_cons.mp hx with rfl | hx
    · exact ⟨_, hfirst⟩
    · exact ih (mapM_eq_ok_iff.mpr hrest) hx

theorem exists_of_mem_mapM (h : xs.mapM f = .ok ys) {y : β} (hy : y ∈ ys) : ∃ x ∈ xs, f x = .ok y := by
  induction xs generalizing ys with
  | nil =>
    cases h
    cases hy
  | cons x xs ih =>
    rw [mapM_cons] at h
    obtain ⟨first, hfirst, h⟩ := bind_eq_ok.mp h
    obtain ⟨rest, hrest, h⟩ := bind_eq_ok.mp h
    cases h
    rcases mem_cons.mp hy with rfl | hy
    · exact ⟨x, mem_cons_self, hfirst⟩
    · obtain ⟨z, hz, hf⟩ := ih hrest hy
      exact ⟨z, mem_cons_of_mem x hz, hf⟩

/-- Fails only with errors in `E`, and returns only values in `Q`. -/
def Ensures (E : ε → Prop) (Q : β → Prop) : Except ε β → Prop
  | .ok b => Q b
  | .error e => E e

@[simp] theorem ensures_ok : Ensures E Q (.ok b) ↔ Q b := Iff.rfl

@[simp] theorem ensures_error : Ensures E Q (.error e : Except ε β) ↔ E e := Iff.rfl

theorem Ensures.bind {x : Except ε α} (hx : Ensures E P x)
    (hf : ∀ a, P a → Ensures E Q (f a)) : Ensures E Q (x >>= f) := by
  cases x with
  | ok a => exact hf a hx
  | error e => exact hx

theorem Ensures.mono (hx : Ensures E Q x) (h : ∀ b, Q b → R b) : Ensures E R x := by
  cases x with
  | ok b => exact h b hx
  | error e => exact hx

theorem Ensures.weaken {E' : ε → Prop} (hx : Ensures E Q x) (h : ∀ e, E e → E' e) : Ensures E' Q x := by
  cases x with
  | ok b => exact hx
  | error e => exact h e hx

theorem Ensures.of_eq_ok (hx : Ensures E Q x) (h : x = .ok b) : Q b := by
  rw [h] at hx
  exact hx

theorem Ensures.of_eq_error (hx : Ensures E Q x) (h : x = .error e) : E e := by
  rw [h] at hx
  exact hx

theorem ensures_iff : Ensures E Q x ↔ (∀ e, x = .error e → E e) ∧ ∀ b, x = .ok b → Q b := by
  cases x <;> simp

/-- What `x` returns is remembered by its equation. -/
theorem Ensures.and_eq (hx : Ensures E Q x) : Ensures E (fun b => Q b ∧ x = .ok b) x := by
  cases x with
  | ok b => exact ⟨hx, rfl⟩
  | error e => exact hx

/-- A property of what is returned, whatever the errors. -/
abbrev Returns (Q : β → Prop) (x : Except ε β) : Prop := Ensures (fun _ => True) Q x

theorem Ensures.returns (h : Ensures E Q x) : Returns Q x := by
  cases x with
  | ok b => exact h
  | error e => trivial

theorem Ensures.of_returns (hE : Ensures E P' x) (hQ : Returns Q x) : Ensures E Q x := by
  cases x with
  | ok b => exact hQ
  | error e => exact hE

theorem returns_any (x : Except ε β) : Returns (fun _ => True) x := by
  cases x <;> trivial

theorem Ensures.skip {x : Except ε α} (hf : ∀ a, Returns Q (f a)) : Returns Q (x >>= f) :=
  (returns_any x).bind (fun a _ => hf a)

end Fallible

namespace Lockstep

open Fallible

variable {ε α β γ δ : Type} {R : α → β → Prop} {S : γ → δ → Prop} {x : Except ε α} {y : Except ε β}
  {f : α → Except ε γ}

def Agrees (R : α → β → Prop) : Except ε α → Except ε β → Prop
  | .ok a, .ok b => R a b
  | .error e, .error e' => e = e'
  | _, _ => False

section

variable {σ : Type}

/-- The runs of one computation from two states agree. -/
abbrev AgreesFrom (R : α → α → Prop) (f : σ → Except ε α) (s s' : σ) : Prop := Agrees R (f s) (f s')

/-- The states after two runs are related. -/
abbrev After (R : σ → σ → Prop) (result result' : α × σ) : Prop := R result.2 result'.2

abbrev SameAfter (R : σ → σ → Prop) (result result' : α × σ) : Prop := result.1 = result'.1 ∧ R result.2 result'.2

end

theorem Agrees.bind {g : β → Except ε δ}
    (h : Agrees R x y) (hfg : ∀ a b, R a b → Agrees S (f a) (g b)) : Agrees S (x >>= f) (y >>= g) := by
  cases x with
  | ok a =>
    cases y with
    | ok b => exact hfg a b h
    | error e => exact h.elim
  | error e =>
    cases y with
    | ok b => exact h.elim
    | error e' => exact h

theorem agrees_bind_self {g : α → Except ε δ}
    (hfg : ∀ a, x = .ok a → Agrees S (f a) (g a)) : Agrees S (x >>= f) (x >>= g) := by
  cases x with
  | ok a => exact hfg a rfl
  | error e => rfl

theorem Agrees.mono {R' : α → β → Prop} (h : Agrees R x y) (hR : ∀ a b, R a b → R' a b) : Agrees R' x y := by
  cases x <;> cases y
  · exact h
  · exact h.elim
  · exact h.elim
  · exact hR _ _ h

/-- What one run ensures by itself joins what the two share. -/
theorem Agrees.and_returns {P : α → Prop} {Q : β → Prop} (h : Agrees R x y)
    (hx : Returns P x) (hy : Returns Q y) : Agrees (fun a b => R a b ∧ P a ∧ Q b) x y := by
  cases x <;> cases y
  · exact h
  · exact h.elim
  · exact h.elim
  · exact ⟨h, hx, hy⟩

theorem Agrees.cases (h : Agrees R x y) :
    (∃ e, x = .error e ∧ y = .error e) ∨ ∃ a b, x = .ok a ∧ y = .ok b ∧ R a b := by
  cases x <;> cases y
  · exact .inl ⟨_, rfl, congrArg _ h.symm⟩
  · exact h.elim
  · exact h.elim
  · exact .inr ⟨_, _, rfl, rfl, h⟩

end Lockstep
