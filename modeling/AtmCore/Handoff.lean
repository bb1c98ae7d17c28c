import AtmCore.MailRuns

/-! The handoff of read states. Readers push transitions into a bounded buffer and do not wait. A worker hands the front
of it to the writer, and removes the front when the writer has applied it; an error is tried again until a deadline. A
supervisor replaces a worker that panicked or was cancelled, as often as its budget allows. What the worker has sent to
the writer stays in the lane of the writer whatever becomes of the worker. -/

namespace AtmCore

structure HandoffConfig where
  handoffBuffer : Nat
  handoffRetryDeadline : Nat
  supervisorMaxRestarts : Nat
  deriving DecidableEq

inductive HandoffRejected where
  | bufferFull
  | unavailable
  deriving DecidableEq

inductive SupervisorState where
  | ready
  | unavailable
  | restarting
  deriving DecidableEq

structure ReadDisplayTransition where
  scope : MailboxScope
  messageIds : List MessageKey
  seenWatermark : Option IsoTimestamp
  origin : MessageWriteOrigin
  deriving DecidableEq

/-- A transition in the buffer, with the number it was accepted under. -/
structure Accepted where
  number : Nat
  transition : ReadDisplayTransition
  deriving DecidableEq

/-- Where the worker is, or its task. -/
inductive WorkerPhase where
  /-- Looks for a transition. -/
  | waiting
  /-- Waits for room in the lane of the writer. -/
  | sending (front : Accepted) (retryDeadline : Nat)
  /-- Waits for the reply of the writer, which may have come. -/
  | awaiting (front : Accepted) (retryDeadline : Nat) (reply : Option (Except AtmError Unit))
  | sleeping (front : Accepted) (retryDeadline : Nat)
  /-- Panicked or was cancelled. -/
  | crashed
  /-- Returned the error of the writer. -/
  | returned
  | respawning
  | gone

/-- The reply goes to the worker if it still waits for it. -/
def WorkerPhase.reply (awaited : Bool) (result : Except AtmError Unit) : WorkerPhase → WorkerPhase
  | .awaiting front retryDeadline none =>
    if awaited then .awaiting front retryDeadline (some result) else .awaiting front retryDeadline none
  | phase => phase

/-- What happens, as an observer writes it down. -/
inductive HandoffEvent where
  | accepted (item : Accepted)
  | taken (item : Accepted) (since : Nat)
  | submitted (item : Accepted)
  | applied (item : Accepted)
  | reported (item : Accepted) (instant : Nat)
  | confirmed (item : Accepted)
  | restarted
  /-- Another write to the database. -/
  | other
  deriving DecidableEq

def HandoffEvent.acceptance : HandoffEvent → Option Accepted
  | .accepted item => some item
  | _ => none

def HandoffEvent.application : HandoffEvent → Option Accepted
  | .applied item => some item
  | _ => none

def HandoffEvent.confirmation : HandoffEvent → Option Accepted
  | .confirmed item => some item
  | _ => none

/-- The handoff, the lane of the writer with whether the worker still waits for each reply, the database, and what
happened so far. -/
structure StateHandoff where
  config : HandoffConfig
  queue : List Accepted
  state : SupervisorState
  restartCount : Nat
  rejectedBufferFull : Nat
  rejectedUnavailable : Nat
  retryDeadlineExhaustions : Nat
  worker : WorkerPhase
  lane : List (Accepted × Bool)
  db : Db
  log : List HandoffEvent

namespace StateHandoff

def start (config : HandoffConfig) (db : Db) : Except AtmError StateHandoff :=
  if config.handoffBuffer = 0 ∨ config.handoffRetryDeadline = 0 then
    .error (.validation "state-handoff buffer and retry deadline must be non-zero")
  else .ok {
    config := config, queue := [], state := .ready, restartCount := 0, rejectedBufferFull := 0, rejectedUnavailable := 0
    retryDeadlineExhaustions := 0, worker := .waiting, lane := [], db := db, log := [] }

def accepted (handoff : StateHandoff) : List Accepted := handoff.log.filterMap HandoffEvent.acceptance

def applied (handoff : StateHandoff) : List Accepted := handoff.log.filterMap HandoffEvent.application

def confirmed (handoff : StateHandoff) : List Accepted := handoff.log.filterMap HandoffEvent.confirmation

/-- The state is read before the transition is queued and may have changed in between, so what was read is an input. -/
def tryPush (observed : SupervisorState) (transition : ReadDisplayTransition) (handoff : StateHandoff) :
    Except HandoffRejected Unit × StateHandoff :=
  if observed ≠ .ready then
    (.error .unavailable, { handoff with rejectedUnavailable := handoff.rejectedUnavailable + 1 })
  else if handoff.config.handoffBuffer ≤ handoff.queue.length then
    (.error .bufferFull, { handoff with rejectedBufferFull := handoff.rejectedBufferFull + 1 })
  else
    let item : Accepted := ⟨handoff.accepted.length, transition⟩
    (.ok (), { handoff with queue := handoff.queue ++ [item], log := handoff.log ++ [.accepted item] })

def takeFront (now : Nat) (handoff : StateHandoff) : StateHandoff :=
  match handoff.worker, handoff.queue with
  | .waiting, front :: _ =>
    { handoff with
      worker := .sending front (now + handoff.config.handoffRetryDeadline)
      log := handoff.log ++ [.taken front now] }
  | _, _ => handoff

/-- The worker learns of an error: it tries again later, or returns it if the deadline has passed. -/
def report (now : Nat) (front : Accepted) (retryDeadline : Nat) (handoff : StateHandoff) : StateHandoff :=
  if retryDeadline ≤ now then
    { handoff with
      retryDeadlineExhaustions := handoff.retryDeadlineExhaustions + 1
      worker := .returned
      log := handoff.log ++ [.reported front now] }
  else { handoff with worker := .sleeping front retryDeadline, log := handoff.log ++ [.reported front now] }

/-- The worker hands its copy to the writer. A message of a peer is refused before, and the lane may be full for too
long, or closed. -/
def submit (now : Nat) (refused : Option AtmError) (handoff : StateHandoff) : StateHandoff :=
  match handoff.worker with
  | .sending front retryDeadline =>
    if front.transition.origin = .peer ∨ refused.isSome then handoff.report now front retryDeadline
    else { handoff with
      worker := .awaiting front retryDeadline none
      lane := handoff.lane ++ [(front, true)]
      log := handoff.log ++ [.submitted front] }
  | _ => handoff

/-- `apply_read_display_state`, as the writer thread executes it. -/
def applyReadDisplayState (world : World) (ambient : Ambient) (transition : ReadDisplayTransition) (db : Db) :
    Except AtmError Unit × Db :=
  let (reply, written) := processQueuedWrite world
    ⟨.applyReadDisplayState transition.scope transition.messageIds transition.seenWatermark
      transition.origin, ambient⟩ db
  match reply with
  | .ok committed => (committed.operation.map (fun _ => ()), written)
  | .error error => (.error error, written)

/-- What becomes of a submission. The transaction may fail to open or to commit, and a writer that shuts down executes
nothing: `failure` is its error then. -/
def outcome (world : World) (ambient : Ambient) (failure : Option AtmError)
    (transition : ReadDisplayTransition) (db : Db) : Except AtmError Unit × Db :=
  match failure with
  | some error => (.error error, db)
  | none => applyReadDisplayState world ambient transition db

/-- The writer executes the first submission of its lane. -/
def write (world : World) (ambient : Ambient) (failure : Option AtmError) (handoff : StateHandoff) : StateHandoff :=
  match handoff.lane with
  | [] => handoff
  | (item, awaited) :: lane =>
    let result := outcome world ambient failure item.transition handoff.db
    { handoff with
      worker := handoff.worker.reply awaited result.1
      lane := lane
      db := result.2
      log := match result.1 with
        | .ok () => handoff.log ++ [HandoffEvent.applied item]
        | .error _ => handoff.log }

/-- Nobody waits for the replies any more. -/
def abandon (handoff : StateHandoff) : List (Accepted × Bool) := handoff.lane.map (fun entry => (entry.1, false))

/-- The worker has the reply, or gives up waiting for it. -/
def receive (now : Nat) (lost : Option AtmError) (handoff : StateHandoff) : StateHandoff :=
  match handoff.worker with
  | .awaiting front _ (some (.ok ())) =>
    { handoff with queue := handoff.queue.tail, worker := .waiting, log := handoff.log ++ [.confirmed front] }
  | .awaiting front retryDeadline (some (.error _)) => handoff.report now front retryDeadline
  | .awaiting front retryDeadline none =>
    if lost.isSome then { handoff with lane := handoff.abandon }.report now front retryDeadline else handoff
  | _ => handoff

def wake (handoff : StateHandoff) : StateHandoff :=
  match handoff.worker with
  | .sleeping front retryDeadline => { handoff with worker := .sending front retryDeadline }
  | _ => handoff

/-- A panic, or a cancellation at one of the places where the worker waits. -/
def crash (handoff : StateHandoff) : StateHandoff :=
  match handoff.worker with
  | .waiting | .sending _ _ | .awaiting _ _ _ | .sleeping _ _ =>
    { handoff with worker := .crashed, lane := handoff.abandon }
  | _ => handoff

/-- The supervisor has the result of the worker. -/
def supervise (handoff : StateHandoff) : StateHandoff :=
  match handoff.worker with
  | .returned => { handoff with state := .unavailable, worker := .gone }
  | .crashed =>
    if handoff.config.supervisorMaxRestarts < handoff.restartCount + 1 then
      { handoff with restartCount := handoff.restartCount + 1, state := .unavailable, worker := .gone }
    else { handoff with restartCount := handoff.restartCount + 1, state := .restarting, worker := .respawning }
  | _ => handoff

def respawn (handoff : StateHandoff) : StateHandoff :=
  match handoff.worker with
  | .respawning => { handoff with state := .ready, worker := .waiting, log := handoff.log ++ [.restarted] }
  | _ => handoff

end StateHandoff

inductive HandoffStep where
  | push (observed : SupervisorState) (transition : ReadDisplayTransition)
  | take (now : Nat)
  | submit (now : Nat) (refused : Option AtmError)
  | write (ambient : Ambient) (failure : Option AtmError)
  | receive (now : Nat) (lost : Option AtmError)
  | wake
  | crash
  | supervise
  | respawn
  | other (step : LifeStep)

def HandoffStep.apply (world : World) (step : HandoffStep) (handoff : StateHandoff) : StateHandoff :=
  match step with
  | .push observed transition => (handoff.tryPush observed transition).2
  | .take now => handoff.takeFront now
  | .submit now refused => handoff.submit now refused
  | .write ambient failure => handoff.write world ambient failure
  | .receive now lost => handoff.receive now lost
  | .wake => handoff.wake
  | .crash => handoff.crash
  | .supervise => handoff.supervise
  | .respawn => handoff.respawn
  | .other step => { handoff with db := step.apply world handoff.db, log := handoff.log ++ [.other] }

/-- The steps of a run, one after the other. A step that cannot be made changes nothing. -/
def StateHandoff.run (world : World) (steps : List HandoffStep) (handoff : StateHandoff) : StateHandoff :=
  steps.foldl (fun handoff step => step.apply world handoff) handoff

end AtmCore
