import Mathlib.Data.Int.Basic
import Mathlib.Tactic.NormNum

/-! The backoff of the cron worker after a failed reload of the schedules. The doubling is a shift of a signed word of
64 bits that checks the shift alone, and the constructor of durations and the addition to an instant panic outside of
their ranges. A value that panics is none. -/

namespace AtmCore

/-- A shift of a signed word of 64 bits: the amount is checked, the value wraps. -/
def checkedShl (value : Int) (shift : Nat) : Option Int :=
  if shift < 64 then some (Int.bmod (value * 2 ^ shift) (2 ^ 64)) else none

/-- A duration of whole seconds, whose milliseconds fit a signed word of 64 bits. -/
def durationSeconds (secs : Int) : Option Int :=
  if -((2 ^ 63 - 1) / 1000) ≤ secs ∧ secs ≤ (2 ^ 63 - 1) / 1000 then some secs else none

/-- The nanoseconds of the first and of the last instant. -/
def minUtc : Int := -8334601228800 * 1000000000

def maxUtc : Int := 8210266876799 * 1000000000 + 999999999

/-- An instant and some seconds. -/
def addSeconds (instant secs : Int) : Option Int :=
  let sum := instant + secs * 1000000000
  if minUtc ≤ sum ∧ sum ≤ maxUtc then some sum else none

def reloadRetryMaxSecs : Int := 60

structure ReloadRetry where
  failures : Nat
  due : Option Int
  deriving DecidableEq

namespace ReloadRetry

def default : ReloadRetry := ⟨0, none⟩

def delay (failures : Nat) : Option Int :=
  durationSeconds (min ((checkedShl 1 failures).getD reloadRetryMaxSecs) reloadRetryMaxSecs)

def failed (retry : ReloadRetry) (now : Int) : Option ReloadRetry := do
  let delay ← delay retry.failures
  let due ← addSeconds now delay
  return ⟨min (retry.failures + 1) (2 ^ 32 - 1), some due⟩

/-- An outage: one failed reload after the other, at these instants. -/
def outage (retry : ReloadRetry) (instants : List Int) : Option ReloadRetry := instants.foldlM failed retry

variable {failures : Nat}

theorem checkedShl_one_of_lt (h : failures < 63) : checkedShl 1 failures = some (2 ^ failures) := by
  have hlt : (2 : Int) ^ failures < 2 ^ 63 := pow_lt_pow_right₀ (by decide) h
  have hpos : (0 : Int) < 2 ^ failures := by positivity
  rw [checkedShl, if_pos (by omega), one_mul, Int.bmod_eq_of_le (by omega) (by omega)]

theorem delay_of_ne (h : failures ≠ 63) : delay failures = some (min (2 ^ failures) 60) := by
  have hpos : (0 : Int) < 2 ^ failures := by positivity
  have hdelay : ∀ secs : Int, 0 < secs → durationSeconds (min secs 60) = some (min secs 60) := by
    intro secs hsecs
    exact if_pos (by omega)
  by_cases hlt : failures < 63
  · rw [delay, checkedShl_one_of_lt hlt]
    exact hdelay _ hpos
  · have hlarge : (2 : Int) ^ 64 ≤ 2 ^ failures := pow_le_pow_right₀ (by decide) (by omega)
    rw [delay, checkedShl, if_neg (by omega), show min ((2 : Int) ^ failures) 60 = 60 by omega]
    rfl

theorem delay_sixty_three : delay 63 = none := by decide

theorem delay_eq_some {secs : Int} (h : delay failures = some secs) :
    failures ≠ 63 ∧ secs = min (2 ^ failures) 60 := by
  have hne : failures ≠ 63 := by
    rintro rfl
    rw [delay_sixty_three] at h
    cases h
  rw [delay_of_ne hne] at h
  exact ⟨hne, (Option.some.inj h).symm⟩

/-- The delay is the doubled one, at most a minute, except after 63 failures, where the shift gives the least number
and the worker panics. Where there is a delay it is from one second to a minute and grows with the failures, and the
next retry is computed whenever its instant is in range. -/
theorem reload_delay_iff (failures : Nat) : (delay failures = some (min (2 ^ failures) 60) ↔ failures ≠ 63) ∧
    (∀ secs, delay failures = some secs → 1 ≤ secs ∧ secs ≤ 60 ∧
      ∀ later secs', failures ≤ later → delay later = some secs' → secs ≤ secs') ∧
    ∀ now due, minUtc ≤ now → ((failed ⟨failures, due⟩ now).isSome = true ↔
      failures ≠ 63 ∧ now + min (2 ^ failures) 60 * 1000000000 ≤ maxUtc) := by
  have hpos : (0 : Int) < 2 ^ failures := by positivity
  refine ⟨⟨fun h => (delay_eq_some h).1, delay_of_ne⟩, fun secs h => ?_, fun now due hnow => ?_⟩
  · obtain ⟨-, rfl⟩ := delay_eq_some h
    refine ⟨by omega, by omega, fun later secs' hlater h' => ?_⟩
    obtain ⟨-, rfl⟩ := delay_eq_some h'
    exact min_le_min_right _ (pow_le_pow_right₀ (by decide) hlater)
  · by_cases hne : failures = 63
    · subst hne
      simp [failed, delay_sixty_three]
    · have hlow : minUtc ≤ now + min (2 ^ failures) 60 * 1000000000 := by omega
      simp only [failed, delay_of_ne hne, addSeconds, hlow, true_and, ne_eq, hne, not_false_eq_true,
        Option.bind_eq_bind, Option.bind_some]
      split <;> simp [*]

/-- An outage with more than 63 failed reloads ends in a panic, as here one at a single instant. -/
theorem long_outage_panics : delay 63 = none ∧ (outage default (List.replicate 63 0)).isSome = true ∧
    outage default (List.replicate 64 0) = none := by
  decide

end ReloadRetry

end AtmCore
