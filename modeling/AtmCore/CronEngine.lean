import AtmCore.StoreRuns

/-! The typed cron engine. A run of a schedule that is due to stop commits the stop. A schedule with a stop hook asks
it first, and commits what it answers, before the tick runs. Every commit sends the intents that were pending for the
generation and then its own. What comes from outside of the engine is given by the ports. -/

namespace AtmCore

def cronOutputMaxItems : Nat := 32

/-- `CronStopReply`: a reason stands exactly in a reply that stops. -/
structure CronStopReply where
  stop : Bool
  reason : Option String
  output : List CronModuleOutput
  reasoned : stop = reason.isSome
  bounded : output.length ≤ cronOutputMaxItems

inductive CronTickReply (α : Type) where
  | passThrough (output : List CronModuleOutput)
  | handled (actions : List α) (output : List CronModuleOutput)
  | notApplicable
  | refused (message : String)

inductive CronRunOutcome where
  | ok
  | refused (message : String)
  | actions (count : Nat)
  | skippedInFlight
  | exit (message : String)
  | timeout
  | malformed
  | actionErr (code : AtmErrorCode)
  | stopped (reason : String)
  | stopCheckFailed (code : AtmErrorCode)
  deriving DecidableEq

/-- What the engine reads of a schedule. -/
structure CronSchedule where
  id : Nat
  generation : CronGeneration
  stop : StopCondition

/-- What is outside of the engine. `meanwhile n` is what other writers did before the `n`-th commit. -/
structure CronPorts (α : Type) where
  started : IsoTimestamp
  clock : Nat → IsoTimestamp
  fresh : Nat → Nat → AtmMessageId
  meanwhile : Nat → List StoreOp
  stopCron : Except AtmError CronStopReply
  runCron : Except AtmError (CronTickReply α)
  dispatchCronActions : List α → Except AtmError Unit × List StoreOp
  deliver : CronDeliveryIntent → Option DeliveryReceipt × List StoreOp

def stopDue (stop : StopCondition) (now : IsoTimestamp) : Bool :=
  match stop with
  | .until instant => decide (instant.nanos ≤ now.nanos)
  | .hook => false

structure Execution where
  transition : CronRunTransition
  outputs : List CronModuleOutput

def failureTransition (kind : CronFailureKind) (code : Option AtmErrorCode) (detail : String) : CronRunTransition :=
  .failure ⟨kind, code, detail⟩

def runnerFailure (error : AtmError) : CronRunTransition :=
  failureTransition
    (match error.code with
      | .hookTimeout => .timeout
      | .hookMalformed => .malformedReply
      | _ => .runnerExit)
    (some error.code) "cron hook runner failed"

def outcomeFor : CronRunTransition → CronRunOutcome
  | .success .ok => .ok
  | .success (.actions count) => .actions count
  | .stopCheckContinues => .ok
  | .stopped reason => .stopped reason
  | .skippedInFlight => .skippedInFlight
  | .failure failure =>
    match failure.kind with
    | .timeout => .timeout
    | .malformedReply => .malformed
    | .actionFailed => .actionErr (failure.code.getD .internalError)
    | .stopCheckFailed => .stopCheckFailed (failure.code.getD .internalError)
    | .refused => .refused failure.detail
    | .runnerExit => .exit failure.detail

/-- `ORDER BY schedule_id, generation, transition_seq, COALESCE(output_index, -1)`. -/
def deliveryOrder (a b : CronIntentRow) : Bool :=
  decide (a.intent.scheduleId < b.intent.scheduleId ∨
    (a.intent.scheduleId = b.intent.scheduleId ∧ (a.intent.generation < b.intent.generation ∨
      (a.intent.generation = b.intent.generation ∧ (a.intent.transitionSeq < b.intent.transitionSeq ∨
        (a.intent.transitionSeq = b.intent.transitionSeq ∧
          (a.intent.outputIndex.elim 0 (· + 1)) ≤ (b.intent.outputIndex.elim 0 (· + 1))))))))

/-- `CronTransitionStore::pending`: rows that were not sent, or whose delivery is not known. -/
def pendingDeliveries (limit : Nat) (intents : List CronIntentRow) : List CronIntentRow :=
  ((intents.filter (fun row => decide (row.state = .pending) || decide (row.state = .unknown))).mergeSort
    deliveryOrder).take limit

def pendingLimit : Nat := 128

/-- `pending_intents`: what is ready to send for the generation of a run. -/
def pendingIntents (schedule : CronSchedule) (intents : List CronIntentRow) : List CronDeliveryIntent :=
  ((pendingDeliveries pendingLimit intents).filter (fun row => decide (row.state = .pending) &&
    decide (row.intent.scheduleId = schedule.id) && decide (row.intent.generation = schedule.generation.get))).map
      CronIntentRow.intent

section Engine

variable {α : Type} (world : World) (ports : CronPorts α) (schedule : CronSchedule)

/-- A module mail whose key is not of the generation of the run is not sent. -/
def sendable (intent : CronDeliveryIntent) : Bool :=
  match intent.payload with
  | .lifecycle _ => true
  | .moduleMail _ _ =>
    decide (intent.scheduleId = schedule.id) && decide (intent.generation = schedule.generation.get)

/-- `deliver_intent` and `mark_intent_delivered`. An intent without a receipt stays pending. -/
def deliverIntent (intent : CronDeliveryIntent) (db : Db) : Db :=
  if sendable schedule intent then
    let (receipt, writes) := ports.deliver intent
    let db := run world writes db
    match receipt with
    | none => db
    | some receipt =>
      (CronOp.markDelivered intent.scheduleId intent.generation intent.transitionSeq intent.outputIndex
        receipt).apply db
  else db

/-- `CronEngine::commit`, the `n`-th of a run. -/
def engineCommit (n : Nat) (transition : CronRunTransition) (outputs : List CronModuleOutput) (db : Db) :
    Except AtmError Bool × Db :=
  let pending := pendingIntents schedule db.cronIntents
  let db := run world (ports.meanwhile n) db
  match commitTransition ⟨schedule.id, schedule.generation, ports.clock n, transition, outputs⟩ (ports.fresh n) db with
  | .error error => (.error error, db)
  | .ok (.staleGeneration, written) => (.ok false, written)
  | .ok (.applied committed, written) =>
    (.ok true, (pending ++ committed).foldl (fun db intent => deliverIntent world ports schedule intent db) written)

def dispatchHandledActions (actions : List α) (output : List CronModuleOutput) (db : Db) : Execution × Db :=
  if actions.isEmpty then (⟨.success (.actions actions.length), output⟩, db)
  else
    let (result, writes) := ports.dispatchCronActions actions
    let db := run world writes db
    match result with
    | .ok () => (⟨.success (.actions actions.length), output⟩, db)
    | .error error =>
      (⟨failureTransition .actionFailed (some error.code) "cron action admission failed", output⟩, db)

def executionForReply (reply : Except AtmError (CronTickReply α)) (db : Db) : Execution × Db :=
  match reply with
  | .error error => (⟨runnerFailure error, []⟩, db)
  | .ok (.passThrough output) => (⟨.success .ok, output⟩, db)
  | .ok .notApplicable => (⟨.success .ok, []⟩, db)
  | .ok (.refused message) => (⟨failureTransition .refused none message, []⟩, db)
  | .ok (.handled actions output) => dispatchHandledActions world ports actions output db

/-- The tick of a run and the commit of what it came to. -/
def tickAndCommit (n : Nat) (db : Db) : CronRunOutcome × Db :=
  let (execution, db) := executionForReply world ports ports.runCron db
  let (_, db) := engineCommit world ports schedule n execution.transition execution.outputs db
  (outcomeFor execution.transition, db)

def runOne (db : Db) : CronRunOutcome × Db :=
  if stopDue schedule.stop ports.started then
    let transition := CronRunTransition.stopped "until reached"
    let (_, db) := engineCommit world ports schedule 0 transition [] db
    (outcomeFor transition, db)
  else
    match schedule.stop with
    | .until _ => tickAndCommit world ports schedule 0 db
    | .hook =>
      match ports.stopCron with
      -- The reply has a reason exactly when it stops.
      | .ok ⟨_, some reason, output, _, _⟩ =>
        let transition := CronRunTransition.stopped reason
        let (_, db) := engineCommit world ports schedule 0 transition output db
        (outcomeFor transition, db)
      | .ok ⟨_, none, output, _, _⟩ =>
        match engineCommit world ports schedule 0 .stopCheckContinues output db with
        | (.ok true, db) => tickAndCommit world ports schedule 1 db
        | (_, db) => (.skippedInFlight, db)
      | .error error =>
        let transition := failureTransition .stopCheckFailed (some error.code) "cron stop check failed"
        let (_, db) := engineCommit world ports schedule 0 transition [] db
        (outcomeFor transition, db)

def transitionForRecord : CronRunOutcome → CronRunTransition
  | .ok => .success .ok
  | .actions count => .success (.actions count)
  | .skippedInFlight => .skippedInFlight
  | .stopped reason => .stopped reason
  | .refused message => failureTransition .refused none message
  | .timeout => failureTransition .timeout none "cron run failed"
  | .malformed => failureTransition .malformedReply none "cron run failed"
  | .exit _ => failureTransition .runnerExit none "cron run failed"
  | .actionErr code => failureTransition .actionFailed (some code) "cron run failed"
  | .stopCheckFailed code => failureTransition .stopCheckFailed (some code) "cron run failed"

/-- `tick::record`: the worker stops a schedule that reached its end or has no future occurrence. -/
def recordOutcome (outcome : CronRunOutcome) (db : Db) : Db :=
  (engineCommit world ports schedule 0 (transitionForRecord outcome) [] db).2

end Engine

/-! Every run of the engine is a run of the store. -/

section Runs

variable {α : Type} (world : World) (ports : CronPorts α) (schedule : CronSchedule)

theorem CronOp.runs (world : World) (op : CronOp) (db : Db) : Runs world db (op.apply db) := ⟨[.cron op], rfl⟩

theorem deliverIntent_runs (intent : CronDeliveryIntent) (db : Db) :
    Runs world db (deliverIntent world ports schedule intent db) := by
  unfold deliverIntent
  split
  · dsimp only
    split
    · exact runs_run world _ db
    · exact (runs_run world _ db).trans (CronOp.runs world _ _)
  · exact .refl world db

theorem deliverAll_runs (intents : List CronDeliveryIntent) (db : Db) :
    Runs world db (intents.foldl (fun db intent => deliverIntent world ports schedule intent db) db) := by
  induction intents generalizing db with
  | nil => exact .refl world db
  | cons intent intents ih => exact (deliverIntent_runs world ports schedule intent db).trans (ih _)

theorem engineCommit_runs (n : Nat) (transition : CronRunTransition) (outputs : List CronModuleOutput) (db : Db) :
    Runs world db (engineCommit world ports schedule n transition outputs db).2 := by
  unfold engineCommit
  dsimp only
  have hmean := runs_run world (ports.meanwhile n) db
  generalize run world (ports.meanwhile n) db = db' at hmean ⊢
  generalize (⟨schedule.id, schedule.generation, ports.clock n, transition, outputs⟩ : CronTransitionWrite) = write
  have hcommit := CronOp.runs world (.commit write (ports.fresh n)) db'
  simp only [CronOp.apply] at hcommit
  cases hrun : commitTransition write (ports.fresh n) db' with
  | error error => exact hmean
  | ok result =>
    rw [hrun] at hcommit
    obtain ⟨⟨committed⟩ | _, written⟩ := result
    · exact (hmean.trans hcommit).trans (deliverAll_runs world ports schedule _ written)
    · exact hmean.trans hcommit

theorem executionForReply_runs (reply : Except AtmError (CronTickReply α)) (db : Db) :
    Runs world db (executionForReply world ports reply db).2 := by
  unfold executionForReply
  split
  · exact .refl world db
  · exact .refl world db
  · exact .refl world db
  · exact .refl world db
  · unfold dispatchHandledActions
    split
    · exact .refl world db
    · dsimp only
      split <;> exact runs_run world _ db

theorem tickAndCommit_runs (n : Nat) (db : Db) : Runs world db (tickAndCommit world ports schedule n db).2 :=
  (executionForReply_runs world ports ports.runCron db).trans (engineCommit_runs world ports schedule n _ _ _)

theorem runOne_runs (db : Db) : Runs world db (runOne world ports schedule db).2 := by
  unfold runOne
  split
  · exact engineCommit_runs world ports schedule 0 _ _ db
  split
  · exact tickAndCommit_runs world ports schedule 0 db
  split
  · exact engineCommit_runs world ports schedule 0 _ _ db
  · next output _ _ _ =>
    have hcommit := engineCommit_runs world ports schedule 0 .stopCheckContinues output db
    split
    · next db' heq =>
      rw [heq] at hcommit
      exact hcommit.trans (tickAndCommit_runs world ports schedule 1 db')
    · next db' _ heq =>
      rw [heq] at hcommit
      exact hcommit
  · exact engineCommit_runs world ports schedule 0 _ _ db

end Runs

end AtmCore
