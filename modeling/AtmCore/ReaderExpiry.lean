import Mathlib.Data.List.Basic
import Mathlib.Logic.Function.Basic

/-! The expiry of a read in the reader pool. The submitter whose deadline has passed looks at two flags of its
worker and interrupts the connection of the worker afterwards; nothing keeps the worker at the request in
between. A worker that ends the request after the look and starts the next one has that one aborted. -/

namespace AtmCore

inductive ReaderStatus where
  | ready | quarantined
  deriving DecidableEq

structure ReadRequest where
  id : Nat
  deadline : Nat

/-- A worker: its shared state, its queue, and the request whose statement runs on its connection. -/
structure ReaderWorker where
  status : ReaderStatus
  active : Bool
  activeRequest : Option Nat
  queue : List ReadRequest
  executing : Option Nat

/-- How far the submitter of a request is: `interrupting` is between the look at the flags and the interrupt. -/
inductive ReadPhase where
  | unsent
  | waiting (worker deadline : Nat)
  | interrupting (worker : Nat)
  | over
  deriving DecidableEq

/-- The pool. A worker that replaces a retired one is one of the workers not used so far. -/
structure ReaderPool where
  now : Nat
  nextRequest : Nat
  workers : Nat → ReaderWorker
  reads : Nat → ReadPhase
  /-- Every interrupt: the expired request, and the one whose statement was running. -/
  interrupts : List (Nat × Option Nat)

namespace ReaderPool

def start : ReaderPool := ⟨0, 0, fun _ => ⟨.ready, false, none, [], none⟩, fun _ => .unsent, []⟩

def setWorker (pool : ReaderPool) (worker : Nat) (next : ReaderWorker) : ReaderPool :=
  { pool with workers := Function.update pool.workers worker next }

def setRead (pool : ReaderPool) (request : Nat) (phase : ReadPhase) : ReaderPool :=
  { pool with reads := Function.update pool.reads request phase }

/-- `submit_with_class_at`, up to the wait for the reply. -/
def submit (pool : ReaderPool) (worker deadline : Nat) : ReaderPool :=
  let target := pool.workers worker
  let sent := pool.setWorker worker { target with queue := target.queue ++ [⟨pool.nextRequest, deadline⟩] }
  { sent.setRead pool.nextRequest (.waiting worker deadline) with nextRequest := pool.nextRequest + 1 }

/-- `run_worker` takes the next request: it refuses it when quarantined, answers it when it is late, or starts it. -/
def receive (pool : ReaderPool) (worker : Nat) : ReaderPool :=
  let target := pool.workers worker
  match target.executing, target.queue with
  | none, request :: queue =>
    if target.status ≠ .ready ∨ request.deadline ≤ pool.now then
      (pool.setWorker worker { target with queue := queue }).setRead request.id .over
    else
      pool.setWorker worker
        ⟨target.status, true, some request.id, queue, some request.id⟩
  | _, _ => pool

/-- `run_worker` ends its request. The reply reaches a submitter that still waits; a quarantined worker retires. -/
def finish (pool : ReaderPool) (worker : Nat) : ReaderPool :=
  let target := pool.workers worker
  match target.executing with
  | none => pool
  | some request =>
    let ended := pool.setWorker worker
      ⟨target.status, false, none, if target.status = .ready then target.queue else [], none⟩
    match pool.reads request with
    | .waiting _ _ => ended.setRead request .over
    | _ => ended

/-- The look of `expire_waiting_request` at the flags of the worker. -/
def expire (pool : ReaderPool) (request : Nat) : ReaderPool :=
  match pool.reads request with
  | .waiting worker deadline =>
    if pool.now < deadline then pool
    else if (pool.workers worker).active ∧ (pool.workers worker).activeRequest = some request then
      pool.setRead request (.interrupting worker)
    else pool.setRead request .over
  | _ => pool

/-- The interrupt of `expire_waiting_request`: it aborts the statement that runs at the moment, if any. -/
def interrupt (pool : ReaderPool) (request : Nat) : ReaderPool :=
  match pool.reads request with
  | .interrupting worker =>
    { pool.setRead request .over with
      interrupts := pool.interrupts ++ [(request, (pool.workers worker).executing)] }
  | _ => pool

def quarantine (pool : ReaderPool) (worker : Nat) : ReaderPool :=
  if (pool.workers worker).active then
    pool.setWorker worker { pool.workers worker with status := .quarantined }
  else pool

end ReaderPool

inductive ReaderStep where
  | advance (ticks : Nat)
  | submit (worker deadline : Nat)
  | receive (worker : Nat)
  | finish (worker : Nat)
  | expire (request : Nat)
  | interrupt (request : Nat)
  | quarantine (worker : Nat)

def ReaderStep.apply (pool : ReaderPool) : ReaderStep → ReaderPool
  | advance ticks => { pool with now := pool.now + ticks }
  | submit worker deadline => pool.submit worker deadline
  | receive worker => pool.receive worker
  | finish worker => pool.finish worker
  | expire request => pool.expire request
  | interrupt request => pool.interrupt request
  | quarantine worker => pool.quarantine worker

def ReaderPool.run (pool : ReaderPool) (steps : List ReaderStep) : ReaderPool := steps.foldl ReaderStep.apply pool

/-- A worker ends its request only when no submitter is between its look at the worker and its interrupt. -/
def ReaderStep.Settled (pool : ReaderPool) : ReaderStep → Prop
  | finish worker => ∀ request, pool.reads request ≠ .interrupting worker
  | _ => True

def SettledReads : List ReaderStep → ReaderPool → Prop
  | [], _ => True
  | step :: steps, pool => step.Settled pool ∧ SettledReads steps (step.apply pool)

/-- An interrupt that is under way is for the request that its worker executes. -/
structure Aimed (pool : ReaderPool) : Prop where
  flags : ∀ worker, (pool.workers worker).activeRequest = (pool.workers worker).executing
  aimed : ∀ request worker, pool.reads request = .interrupting worker →
    (pool.workers worker).executing = some request
  own : ∀ entry ∈ pool.interrupts, entry.2 = some entry.1

namespace Aimed

variable {pool : ReaderPool}

variable (h : Aimed pool)
include h

theorem setRead (request : Nat) {phase : ReadPhase}
    (hphase : ∀ worker, phase = .interrupting worker → (pool.workers worker).executing = some request) :
    Aimed (pool.setRead request phase) := by
  refine ⟨h.flags, fun other worker hother => ?_, h.own⟩
  by_cases hsame : other = request
  · subst hsame
    exact hphase worker (by simpa [ReaderPool.setRead] using hother)
  · exact h.aimed other worker (by simpa [ReaderPool.setRead, hsame] using hother)

theorem setOver (request : Nat) : Aimed (pool.setRead request .over) := h.setRead request nofun

theorem setWorker {worker : Nat} {next : ReaderWorker} (hflags : next.activeRequest = next.executing)
    (hnext : ∀ request, pool.reads request = .interrupting worker → next.executing = some request) :
    Aimed (pool.setWorker worker next) := by
  refine ⟨fun other => ?_, fun request other hother => ?_, h.own⟩
  · by_cases hsame : other = worker
    · subst hsame
      simpa [ReaderPool.setWorker] using hflags
    · simpa [ReaderPool.setWorker, hsame] using h.flags other
  · by_cases hsame : other = worker
    · subst hsame
      simpa [ReaderPool.setWorker] using hnext request hother
    · simpa [ReaderPool.setWorker, hsame] using h.aimed request other hother

theorem setQueue (worker : Nat) (queue : List ReadRequest) :
    Aimed (pool.setWorker worker { pool.workers worker with queue := queue }) :=
  h.setWorker (h.flags worker) (h.aimed · worker)

theorem receive (worker : Nat) : Aimed (pool.receive worker) := by
  unfold ReaderPool.receive
  dsimp only
  split
  · next request queue hidle _ =>
    -- nobody is about to interrupt a worker that executes nothing
    have hnone : ∀ other, pool.reads other ≠ .interrupting worker := by
      intro other hother
      have hexecuting := h.aimed other worker hother
      rw [hidle] at hexecuting
      cases hexecuting
    split
    · exact (h.setQueue worker queue).setOver request.id
    · exact h.setWorker rfl (fun other hother => absurd hother (hnone other))
  · exact h

theorem finish {worker : Nat} (hset : ∀ request, pool.reads request ≠ .interrupting worker) :
    Aimed (pool.finish worker) := by
  unfold ReaderPool.finish
  dsimp only
  split
  · exact h
  · next request _ =>
    have hend : ∀ queue, Aimed (pool.setWorker worker ⟨(pool.workers worker).status, false, none, queue, none⟩) :=
      fun queue => h.setWorker rfl (fun other hother => absurd hother (hset other))
    split
    · exact (hend _).setOver request
    · exact hend _

theorem expire (request : Nat) : Aimed (pool.expire request) := by
  unfold ReaderPool.expire
  split
  · next worker deadline _ =>
    split
    · exact h
    · split
      · next hact =>
        refine h.setRead request (fun other hother => ?_)
        cases hother
        rw [← h.flags worker]
        exact hact.2
      · exact h.setOver request
  · exact h

theorem interrupt (request : Nat) : Aimed (pool.interrupt request) := by
  unfold ReaderPool.interrupt
  split
  · next worker hphase =>
    refine ⟨h.flags, (h.setOver request).aimed, fun entry hentry => ?_⟩
    rcases List.mem_append.mp hentry with hentry | hentry
    · exact h.own entry hentry
    · rw [List.mem_singleton.mp hentry]
      exact h.aimed request worker hphase
  · exact h

theorem step (step : ReaderStep) (hset : step.Settled pool) : Aimed (step.apply pool) := by
  cases step with
  | advance ticks => exact ⟨h.flags, h.aimed, h.own⟩
  | submit worker deadline =>
    have hq := h.setQueue worker ((pool.workers worker).queue ++ [⟨pool.nextRequest, deadline⟩])
    have hwaiting : ∀ other, ReadPhase.waiting worker deadline ≠ .interrupting other := nofun
    have hsent := hq.setRead pool.nextRequest (fun other hphase => absurd hphase (hwaiting other))
    exact ⟨hsent.flags, hsent.aimed, hsent.own⟩
  | receive worker => exact h.receive worker
  | finish worker => exact h.finish hset
  | expire request => exact h.expire request
  | interrupt request => exact h.interrupt request
  | quarantine worker =>
    dsimp only [ReaderStep.apply, ReaderPool.quarantine]
    split
    · exact h.setWorker (h.flags worker) (h.aimed · worker)
    · exact h

theorem run (steps : List ReaderStep) (hset : SettledReads steps pool) : Aimed (pool.run steps) := by
  induction steps generalizing pool with
  | nil => exact h
  | cons step steps ih => exact ih (h.step step hset.1) hset.2

end Aimed

theorem aimed_start : Aimed .start := ⟨fun _ => rfl, nofun, nofun⟩

/-- In every run in which no worker ends a request under a look at it, every interrupt finds the expired request. -/
theorem interrupt_finds_expired (steps : List ReaderStep) (h : SettledReads steps .start) (entry : Nat × Option Nat)
    (hentry : entry ∈ (ReaderPool.start.run steps).interrupts) : entry.2 = some entry.1 :=
  (aimed_start.run steps h).own entry hentry

theorem expired_read_interrupted : (ReaderPool.start.run
      [.submit 0 5, .receive 0, .advance 5, .expire 0, .interrupt 0]).interrupts = [(0, some 0)] ∧
    ∀ entry ∈ (ReaderPool.start.run [.submit 0 5, .receive 0, .advance 5, .expire 0, .interrupt 0]).interrupts,
      entry.2 = some entry.1 :=
  ⟨by decide, interrupt_finds_expired _ ⟨trivial, trivial, trivial, trivial, trivial, trivial⟩⟩

/-- The first read ends after the look at its worker, and the second one, due a hundred ticks later, is aborted. -/
theorem interrupt_aborts_other_read :
    (ReaderPool.start.run [.submit 0 5, .submit 0 105, .receive 0, .advance 5, .expire 0, .finish 0, .receive 0,
      .interrupt 0]).interrupts = [(0, some 1)] ∧
    (ReaderPool.start.run [.submit 0 5, .submit 0 105, .receive 0, .advance 5, .expire 0, .finish 0, .receive 0]).now <
      105 := by
  decide

end AtmCore
