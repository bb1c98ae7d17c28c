import AtmCore.Envelope
import AtmCore.TableRows

/-! The tables of the cron store. A schedule row keeps its id over restarts and counts them in its
generation; a run is identified by both, and everything a run writes is fenced by them. A transition
event is what a run committed, and a delivery intent is mail the transition owes. -/

namespace AtmCore

structure PhaseId where
  val : String
  deriving DecidableEq

inductive StopCondition where
  | until (instant : IsoTimestamp)
  | hook
  deriving DecidableEq

/-- A row of `cron_schedule`. The stop condition stands for the columns `until_at` and `stop_hook`, of
which the schema lets exactly one be set; `active` is `ended_at IS NULL` by a check of the schema. -/
structure CronScheduleRow where
  id : Nat
  generation : Nat
  team : TeamName
  phase : PhaseId
  name : String
  cronExpr : String
  modulePath : String
  cwd : String
  args : List String
  timeoutMs : Nat
  jitterS : Nat
  custom : List (String × Value)
  stop : StopCondition
  active : Bool
  createdBy : AgentName
  createdAt : IsoTimestamp
  lastRunAt : Option IsoTimestamp
  lastOutcome : Option String
  endedAt : Option IsoTimestamp

/-- `UNIQUE (team, phase, name)`. -/
def CronScheduleRow.slot (row : CronScheduleRow) : TeamName × PhaseId × String :=
  (row.team, row.phase, row.name)

inductive CronFailureKind where
  | timeout
  | malformedReply
  | runnerExit
  | refused
  | actionFailed
  | stopCheckFailed
  deriving DecidableEq

/-- `CronDiagnosticDetail`: one line of bounded length that is not blank. -/
structure CronFailure where
  kind : CronFailureKind
  code : Option AtmErrorCode
  detail : String
  deriving DecidableEq

inductive CronSuccess where
  | ok
  | actions (count : Nat)
  deriving DecidableEq

inductive CronRunTransition where
  | success (outcome : CronSuccess)
  | stopCheckContinues
  | failure (failure : CronFailure)
  | stopped (reason : String)
  | skippedInFlight
  deriving DecidableEq

inductive CronModuleOutput where
  | message (body : String)
  | error (body : String)
  deriving DecidableEq

/-- The texts of the column `transition_kind`. A skipped run never reaches the table. -/
inductive CronEventKind where
  | success
  | continue
  | failure
  | stopped
  | skipped
  deriving DecidableEq

structure CronEventRow where
  scheduleId : Nat
  generation : Nat
  transitionSeq : Nat
  transitionAt : IsoTimestamp
  kind : CronEventKind
  failureKind : Option CronFailureKind
  failureCode : Option AtmErrorCode
  failureDetail : Option String
  deriving DecidableEq

inductive CronLifecycleEvent where
  | error (failure : CronFailure)
  | stopped (message : String)
  deriving DecidableEq

/-- What a delivery intent carries; a module mail has its message id and its output. -/
inductive CronIntentPayload where
  | lifecycle (event : CronLifecycleEvent)
  | moduleMail (messageId : AtmMessageId) (output : CronModuleOutput)
  deriving DecidableEq

structure CronDeliveryIntent where
  scheduleId : Nat
  generation : Nat
  transitionSeq : Nat
  outputIndex : Option Nat
  team : TeamName
  recipient : AgentName
  name : String
  payload : CronIntentPayload
  deriving DecidableEq

inductive CronDeliveryState where
  | pending
  | delivered
  | suppressed
  | recipientUnavailable
  | unknown
  deriving DecidableEq

structure CronIntentRow where
  intent : CronDeliveryIntent
  state : CronDeliveryState
  receipt : Option String
  retryCause : Option String
  deriving DecidableEq

end AtmCore
