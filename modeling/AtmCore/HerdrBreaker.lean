import Mathlib.Algebra.Group.Nat.Defs
import Mathlib.Data.List.Basic

/-! The circuit breaker of the Herdr process. After an infrastructure failure it refuses operations for a while, and
then lets one through as a probe, which a flag remembers until a result is recorded. The call records a failure of the
transport, and the operation then records its whole result. -/

namespace AtmCore

inductive HerdrError where
  | agentBlocked | agentNotFound | agentNotReady | agentTargetAmbiguous | agentNotRunning | agentPromptStalled
  | serverNotRunning
  | protocolMismatch (message : String)
  | timeout | invalidAgentName | emptyAgentPrompt
  | serverUnavailable (message : String) (retryAfter : Option Nat)
  | internalError (message : String)
  | timedOut
  | unavailable (retryAfter : Nat)
  | advisory (code message : String)

def HerdrError.isInfrastructure : HerdrError → Bool
  | .serverNotRunning | .protocolMismatch _ | .serverUnavailable _ _ | .timedOut => true
  | _ => false

def HerdrError.breakerRetryAfter : HerdrError → Option Nat
  | .serverUnavailable _ retryAfter => retryAfter
  | _ => none

inductive HerdrBreakerState where
  | closed
  | «open» (retryAfter : Nat)
  | halfOpen

structure BreakerState where
  consecutiveFailures : Nat
  openedAt : Option Nat
  halfOpenProbe : Bool
  retryAfterOverride : Option Nat
  deriving DecidableEq

def second : Nat := 1000000000

def breakerMaxBackoff : Nat := 30 * second

def breakerBackoff (consecutiveFailures : Nat) : Nat :=
  min (2 ^ min (consecutiveFailures - 1) 5 * second) breakerMaxBackoff

namespace BreakerState

def default : BreakerState := ⟨0, none, false, none⟩

def backoff (state : BreakerState) : Nat := state.retryAfterOverride.getD (breakerBackoff state.consecutiveFailures)

def breakerState (state : BreakerState) (now : Nat) : HerdrBreakerState :=
  match state.openedAt with
  | none => .closed
  | some openedAt =>
    let retryAfter := state.backoff - (now - openedAt)
    if retryAfter = 0 ∨ state.halfOpenProbe = true then .halfOpen else .open retryAfter

def permitsSpawn (state : BreakerState) (now : Nat) : Bool × BreakerState :=
  match state.breakerState now with
  | .closed => (true, state)
  | .halfOpen => if state.halfOpenProbe then (false, state) else (true, { state with halfOpenProbe := true })
  | .open retryAfter => if retryAfter = 0 then (true, { state with halfOpenProbe := true }) else (false, state)

def recordInfrastructureError (state : BreakerState) (error : HerdrError) (now : Nat) : BreakerState :=
  ⟨min (state.consecutiveFailures + 1) (2 ^ 32 - 1), some now, false, error.breakerRetryAfter⟩

def recordCallResult {α : Type} (state : BreakerState) (result : Except HerdrError α) (now : Nat) : BreakerState :=
  match result with
  | .error error => if error.isInfrastructure then state.recordInfrastructureError error now else state
  | .ok _ => state

def recordResult {α : Type} (state : BreakerState) (result : Except HerdrError α) (now : Nat) : BreakerState :=
  match result with
  | .error (.unavailable _) => state
  | .error error => if error.isInfrastructure then state.recordInfrastructureError error now else default
  | .ok _ => default

end BreakerState

/-- An operation that was let through: the result of the transport and what is made of its envelope, with the instants
at which the call and the operation record. No transport answers as the breaker itself does. -/
structure HerdrOp where
  io : Except HerdrError Unit
  envelope : Except HerdrError Unit
  calledAt : Nat
  recordedAt : Nat
  answered : ∀ retryAfter, io.bind (fun _ => envelope) ≠ .error (.unavailable retryAfter)

def HerdrOp.result (op : HerdrOp) : Except HerdrError Unit := op.io.bind (fun _ => op.envelope)

theorem HerdrOp.recordResult_eq (op : HerdrOp) (state : BreakerState) (now : Nat) : state.recordResult op.result now =
    match op.result with
    | .error error => if error.isInfrastructure then state.recordInfrastructureError error now else .default
    | .ok _ => .default := by
  have hanswer := op.answered
  rw [← HerdrOp.result] at hanswer
  cases hres : op.result with
  | ok _ => rfl
  | error error =>
    cases error with
    | unavailable retryAfter => exact absurd hres (hanswer retryAfter)
    | _ => rfl

/-- Operations that run side by side: each waits for Herdr, or has its answer and records it next. Those that bypass the
breaker do not touch it and are left out. -/
structure HerdrCalls where
  breaker : BreakerState
  running : Nat → Option (Option HerdrOp)

inductive CallStep where
  | ask (id now : Nat)
  | answer (id : Nat) (op : HerdrOp)
  | record (id : Nat)
  | cancel (id : Nat)

namespace HerdrCalls

def start : HerdrCalls := ⟨.default, fun _ => none⟩

def step (calls : HerdrCalls) : CallStep → HerdrCalls
  | .ask id now =>
    match calls.running id, calls.breaker.permitsSpawn now with
    | none, (true, breaker) => ⟨breaker, Function.update calls.running id (some none)⟩
    | _, _ => calls
  | .answer id op =>
    match calls.running id with
    | some none =>
      ⟨calls.breaker.recordCallResult op.io op.calledAt, Function.update calls.running id (some (some op))⟩
    | _ => calls
  | .record id =>
    match calls.running id with
    | some (some op) => ⟨calls.breaker.recordResult op.result op.recordedAt, Function.update calls.running id none⟩
    | _ => calls
  -- the operation is dropped while it waits for Herdr
  | .cancel id =>
    match calls.running id with
    | some none => { calls with running := Function.update calls.running id none }
    | _ => calls

def run (calls : HerdrCalls) (steps : List CallStep) : HerdrCalls := steps.foldl step calls

/-- Nothing is cancelled that the flag of the probe stays behind for: another operation runs on, or there is no flag. -/
def Spares (calls : HerdrCalls) : CallStep → Prop
  | .cancel id => calls.breaker.halfOpenProbe = true → ∃ other ≠ id, calls.running other ≠ none
  | _ => True

def Spared : HerdrCalls → List CallStep → Prop
  | _, [] => True
  | calls, step :: steps => calls.Spares step ∧ (calls.step step).Spared steps

/-- Where the flag is set, an operation runs that will record. -/
def Watched (calls : HerdrCalls) : Prop := calls.breaker.halfOpenProbe = true → ∃ id, calls.running id ≠ none

variable {calls : HerdrCalls}

theorem Watched.step (h : calls.Watched) {step : CallStep} (hspares : calls.Spares step) :
    (calls.step step).Watched := by
  cases step with
  | ask id | answer id =>
    rw [HerdrCalls.step.eq_def]
    dsimp only
    split
    · exact fun _ => ⟨id, by simp⟩
    · exact h
  | record id =>
    rw [HerdrCalls.step.eq_def]
    dsimp only
    split
    · next op hop =>
      intro hflag
      dsimp only at hflag
      rw [op.recordResult_eq] at hflag
      split at hflag
      · split at hflag <;> cases hflag
      · cases hflag
    · exact h
  | cancel id =>
    rw [HerdrCalls.step.eq_def]
    dsimp only
    split
    · intro hflag
      obtain ⟨other, hne, hother⟩ := hspares hflag
      exact ⟨other, by simpa [Function.update_of_ne hne] using hother⟩
    · exact h

theorem Watched.run (h : calls.Watched) {steps : List CallStep} (hspares : calls.Spared steps) :
    (calls.run steps).Watched := by
  induction steps generalizing calls with
  | nil => exact h
  | cons step steps ih => exact ih (h.step hspares.1) hspares.2

theorem permits_of_past {state : BreakerState} (h : state.halfOpenProbe = false) {now : Nat}
    (hnow : state.openedAt.getD 0 + state.backoff ≤ now) : (state.permitsSpawn now).1 = true := by
  unfold BreakerState.permitsSpawn BreakerState.breakerState
  cases hopened : state.openedAt with
  | none => rfl
  | some openedAt =>
    rw [hopened, Option.getD_some] at hnow
    have hwait : state.backoff - (now - openedAt) = 0 := by omega
    simp [hwait, h]

/-- In every run in which no cancelled operation leaves the flag of the probe behind, the breaker opens up again: when
nothing runs, there is an instant from which on the next operation is let through. -/
theorem breaker_reopens (steps : List CallStep) (hspared : start.Spared steps)
    (hidle : ∀ id, (start.run steps).running id = none) :
    ∃ since, ∀ now, since ≤ now → ((start.run steps).breaker.permitsSpawn now).1 = true := by
  have hwatched : (start.run steps).Watched := Watched.run (fun hflag => by cases hflag) hspared
  refine ⟨_, fun now => permits_of_past (Bool.eq_false_iff.mpr (fun hflag => ?_))⟩
  obtain ⟨id, hid⟩ := hwatched hflag
  exact hid (hidle id)

/-- An operation fails, and the probe that is let through two seconds later is dropped before Herdr answers. -/
theorem dropped_probe_locks :
    let failed := (⟨.error .serverNotRunning, .ok (), 0, 0, nofun⟩ : HerdrOp)
    let calls := start.run [.ask 1 0, .answer 1 failed, .record 1, .ask 2 (2 * second), .cancel 2]
    calls.running 1 = none ∧ calls.running 2 = none ∧ ∀ now, (calls.breaker.permitsSpawn now).1 = false := by
  intro failed calls
  have hlocked : calls.breaker = ⟨2, some 0, true, none⟩ := by decide
  refine ⟨Option.isNone_iff_eq_none.mp (by decide), Option.isNone_iff_eq_none.mp (by decide), fun now => ?_⟩
  rw [hlocked]
  simp [BreakerState.permitsSpawn, BreakerState.breakerState]

/-- Of two operations one fails and opens the breaker, and the other is dropped while no probe is out. -/
theorem dropped_call_reopens :
    let failed := (⟨.error .serverNotRunning, .ok (), 0, 0, nofun⟩ : HerdrOp)
    let steps := [.ask 1 0, .ask 2 0, .answer 1 failed, .record 1, .cancel 2]
    start.Spared steps ∧ ((start.run steps).breaker.permitsSpawn 0).1 = false ∧
      ∃ since, ∀ now, since ≤ now → ((start.run steps).breaker.permitsSpawn now).1 = true := by
  intro failed steps
  have hspared : start.Spared steps := ⟨trivial, trivial, trivial, trivial, nofun, trivial⟩
  refine ⟨hspared, by decide, breaker_reopens steps hspared (fun id => ?_)⟩
  match id with
  | 0 | 1 | 2 => rfl
  | _ + 3 => rfl

end HerdrCalls

end AtmCore
