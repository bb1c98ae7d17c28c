import AtmCore.CronTables
import Mathlib.Data.Prod.Lex
import Mathlib.Data.String.Basic

/-! The registry of task hooks. Registrations are rows of the store, and a hooked command consults a snapshot of them,
which a job on the control path builds and installs: the job of a registry write after its commit, or a reload. The
control path admits one job at a time by a permit. A job that runs to its end whatever happens to its request leaves the
permit with the request, and one whose answer may be abandoned takes the permit along. -/

namespace AtmCore

open Rows

structure HookName where
  val : String
  deriving DecidableEq

structure HookRegistration where
  team : TeamName
  phase : PhaseId
  hook : HookName
  modulePath : String
  cwd : String
  timeoutMs : Nat
  custom : List (String × Value)
  active : Bool
  registeredBy : AgentName
  registeredAt : IsoTimestamp
  disabledAt : Option IsoTimestamp

def HookRegistration.key (row : HookRegistration) : TeamName × PhaseId × HookName := (row.team, row.phase, row.hook)

abbrev HookTable := Table HookRegistration.key

/-- `register`: an active row keeps its instant, and with it its place in the chain. -/
def registerHook (registration : HookRegistration) (table : HookTable) : HookTable :=
  table.upsert { registration with active := true, disabledAt := none }
    (fun row => { row with
      modulePath := registration.modulePath
      cwd := registration.cwd
      timeoutMs := registration.timeoutMs
      custom := registration.custom
      registeredBy := registration.registeredBy
      registeredAt := if row.active then row.registeredAt else registration.registeredAt
      active := true
      disabledAt := none })
    (fun _ => rfl)

/-- `disable`: the active rows of a phase, or of one hook in it. -/
def disableHooks (team : TeamName) (phase : PhaseId) (hook : Option HookName) (instant : IsoTimestamp)
    (table : HookTable) : HookTable :=
  table.mapRows (fun row =>
      if row.team = team ∧ row.phase = phase ∧ row.active = true ∧
        hook.all (fun hook => decide (row.hook = hook)) = true then
        { row with active := false, disabledAt := some instant }
      else row)
    (fun row => by split <;> rfl)

/-- `active_all`: the active rows by team, hook, instant and phase. -/
def activeHooks (table : HookTable) : List HookRegistration :=
  (table.rows.filter HookRegistration.active).insertionSort (fun left right =>
    toLex (left.team.val, toLex (left.hook.val, toLex (left.registeredAt.nanos, left.phase.val))) ≤
      toLex (right.team.val, toLex (right.hook.val, toLex (right.registeredAt.nanos, right.phase.val))))

abbrev HookChains := TeamName → HookName → List HookRegistration

/-- `build_chains`: the active rows grouped by team and hook. -/
def buildChains (table : HookTable) : HookChains :=
  fun team hook => (activeHooks table).filter (fun row => decide (row.team = team) && decide (row.hook = hook))

inductive HookWrite where
  | register (registration : HookRegistration)
  | disable (team : TeamName) (phase : PhaseId) (hook : Option HookName) (instant : IsoTimestamp)

def HookWrite.apply : HookWrite → HookTable → HookTable
  | .register registration => registerHook registration
  | .disable team phase hook instant => disableHooks team phase hook instant

/-- Who keeps the permit while a job runs. -/
inductive BlockingCompletionPolicy where
  | awaitCompletion
  | abandonResponseAtDeadline
  deriving DecidableEq

/-- The requests that use the control path. Those that touch neither the registry nor the snapshot are `other`. -/
inductive ControlCall where
  | write (write : HookWrite)
  | command (team : TeamName) (hook : HookName)
  | other (policy : BlockingCompletionPolicy)

def ControlCall.policy : ControlCall → BlockingCompletionPolicy
  | .write _ | .command _ _ => .awaitCompletion
  | .other policy => policy

/-- How far a job is. `version` is the state of the store that its write left, if it is the job of a write. -/
inductive JobPhase where
  | start
  | committed (version : Nat)
  | reloading
  | built (version : Option Nat) (source : Nat) (chains : HookChains)
  | installed (version : Option Nat)

structure ControlJob where
  request : Nat
  call : ControlCall
  phase : JobPhase

/-- How far a request is: in the queue for the permit, with a job under way, with the result of its job, or about to
read the snapshot. -/
inductive RequestPhase where
  | waiting (call : ControlCall)
  | awaiting (call : ControlCall)
  | returned (call : ControlCall) (succeeded : Bool)
  | reading (team : TeamName) (hook : HookName)

inductive PermitOwner where
  | request (id : Nat)
  | job (id : Nat)
  deriving DecidableEq

/-- What the runs record: that the job of the write that left a version ended with a refresh, and what a
command read. -/
inductive HookEvent where
  | refreshed (version : Nat)
  | consulted (team : TeamName) (hook : HookName) (chain : List HookRegistration)

/-- `earlier` has the versions of the store before the present one, and `builtFrom` says which of them the snapshot
shows; no function of the source reads either. -/
structure HookSystem where
  permit : Option PermitOwner
  store : HookTable
  earlier : List HookTable
  chains : HookChains
  builtFrom : Option Nat
  dirty : Bool
  requests : Nat → Option RequestPhase
  jobs : List ControlJob
  log : List HookEvent

namespace HookSystem

def versions (system : HookSystem) : List HookTable := system.earlier ++ [system.store]

/-- `load`, or `deferred`, which leaves the first read to the first command. -/
def start (store : HookTable) (loaded : Bool) : HookSystem where
  permit := none
  store := store
  earlier := []
  chains := if loaded then buildChains store else fun _ _ => []
  builtFrom := if loaded then some 0 else none
  dirty := !loaded
  requests := fun _ => none
  jobs := []
  log := []

def setRequest (id : Nat) (phase : Option RequestPhase) (system : HookSystem) : HookSystem :=
  { system with requests := Function.update system.requests id phase }

/-- The permit goes back when its owner is dropped. -/
def release (owner : PermitOwner) (system : HookSystem) : HookSystem :=
  if system.permit = some owner then { system with permit := none } else system

def setPhase (id : Nat) (phase : JobPhase) (system : HookSystem) : HookSystem :=
  { system with jobs := system.jobs.map (fun job => if job.request = id then { job with phase := phase } else job) }

/-- A job ends: a permit of its own goes back, and a request that waits for it gets the result. -/
def endJob (id : Nat) (succeeded : Bool) (system : HookSystem) : HookSystem :=
  let ended := { system with jobs := system.jobs.filter (fun job => decide (job.request ≠ id)) }.release (.job id)
  match ended.requests id with
  | some (.awaiting call) => ended.setRequest id (some (.returned call succeeded))
  | _ => ended

/-- The next move of a job; with `failure` the store fails in it. -/
def moveJob (job : ControlJob) (failure : Bool) (system : HookSystem) : HookSystem :=
  match job.phase with
  | .start =>
    match job.call with
    | .write write =>
      if failure then system.endJob job.request false
      else { system with
          store := write.apply system.store
          earlier := system.earlier ++ [system.store] }.setPhase job.request (.committed (system.earlier.length + 1))
    | .command _ _ => if system.dirty then system.setPhase job.request .reloading else system.endJob job.request true
    | .other _ => system.endJob job.request (!failure)
  | .committed version =>
    if failure then { system with dirty := true }.endJob job.request false
    else system.setPhase job.request (.built (some version) system.earlier.length (buildChains system.store))
  | .reloading =>
    if failure then { system with dirty := true }.endJob job.request false
    else system.setPhase job.request (.built none system.earlier.length (buildChains system.store))
  | .built version source chains =>
    { system with chains := chains, builtFrom := some source }.setPhase job.request (.installed version)
  | .installed version =>
    { system with dirty := false, log := system.log ++ version.toList.map HookEvent.refreshed }.endJob job.request true

end HookSystem

inductive HookStep where
  /-- A request comes in; a command that finds the snapshot clean goes on to read it. -/
  | arrive (id : Nat) (call : ControlCall)
  /-- The permit is acquired and the job spawned. -/
  | acquire (id : Nat)
  /-- A job makes its next move. -/
  | work (id : Nat) (failure : Bool)
  /-- A request takes the result of its job. -/
  | resume (id : Nat)
  | consult (id : Nat)
  /-- A request is dropped, or its deadline passes in the queue. -/
  | leave (id : Nat)

/-- A step that cannot be made changes nothing. -/
def HookStep.apply (step : HookStep) (system : HookSystem) : HookSystem :=
  match step with
  | .arrive id call =>
    if (system.requests id).isNone && system.jobs.all (fun job => decide (job.request ≠ id)) then
      match call with
      | .command team hook =>
        if system.dirty then system.setRequest id (some (.waiting call))
        else system.setRequest id (some (.reading team hook))
      | _ => system.setRequest id (some (.waiting call))
    else system
  | .acquire id =>
    match system.permit, system.requests id with
    | none, some (.waiting call) =>
      { system with
        permit := some (match call.policy with
          | .awaitCompletion => .request id
          | .abandonResponseAtDeadline => .job id)
        jobs := ⟨id, call, .start⟩ :: system.jobs }.setRequest id (some (.awaiting call))
    | _, _ => system
  | .work id failure =>
    match system.jobs.find? (fun job => decide (job.request = id)) with
    | some job => system.moveJob job failure
    | none => system
  | .resume id =>
    match system.requests id with
    | some (.returned call succeeded) =>
      let resumed := system.release (.request id)
      match call, succeeded with
      | .command team hook, true => resumed.setRequest id (some (.reading team hook))
      | _, _ => resumed.setRequest id none
    | _ => system
  | .consult id =>
    match system.requests id with
    | some (.reading team hook) =>
      { system with log := system.log ++ [HookEvent.consulted team hook (system.chains team hook)] }.setRequest id none
    | _ => system
  | .leave id => (system.release (.request id)).setRequest id none

def HookSystem.run (steps : List HookStep) (system : HookSystem) : HookSystem :=
  steps.foldl (fun system step => step.apply system) system

end AtmCore
