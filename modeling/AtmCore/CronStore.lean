import AtmCore.Database

/-! The cron store. `start` inserts a schedule at generation 1 or restarts an ended one in place under the next
generation; ending and stopping clear `active`. `commit` records one transition of a run, updates the schedule's last
outcome and persists the mail the transition owes, all fenced by the generation. The failure that a failure may repeat
is read from the last event of the generation as columns that are not optional. -/

namespace AtmCore

open Rows

structure NewCronSchedule where
  team : TeamName
  phase : PhaseId
  name : String
  cronExpr : String
  modulePath : String
  cwd : String
  args : List String
  timeoutMs : Nat
  jitterS : Nat
  custom : List (String × Value)
  stop : StopCondition
  createdBy : AgentName
  createdAt : IsoTimestamp

/-- A constraint violation of a table the cron store writes. -/
def writeError (table message : String) (violated : Constraint) : AtmError :=
  (AtmError.validationWithRecovery (table ++ ": " ++ message)
    "check the request fields against docs/atm-storage/boundaries.md").withCause (.constraint violated)

def storedRowInternal (key detail : String) : AtmError :=
  .new .internalError s!"stored row {key}: {detail}"

/-- The fields `insert` and `restart` write. -/
def NewCronSchedule.fill (schedule : NewCronSchedule) (id generation : Nat) : CronScheduleRow where
  id := id
  generation := generation
  team := schedule.team
  phase := schedule.phase
  name := schedule.name
  cronExpr := schedule.cronExpr
  modulePath := schedule.modulePath
  cwd := schedule.cwd
  args := schedule.args
  timeoutMs := schedule.timeoutMs
  jitterS := schedule.jitterS
  custom := schedule.custom
  stop := schedule.stop
  active := true
  createdBy := schedule.createdBy
  createdAt := schedule.createdAt
  lastRunAt := none
  lastOutcome := none
  endedAt := none

/-- The row id `AUTOINCREMENT` gives out. -/
def nextCronId (schedules : Table CronScheduleRow.id) : Nat :=
  (schedules.rows.map CronScheduleRow.id).foldr max 0 + 1

/-- Reading a row back: the generation must fit its type. -/
def decodeGeneration (row : CronScheduleRow) : Except AtmError CronScheduleRow :=
  if row.generation < 2 ^ 32 then .ok row
  else .error (storedRowInternal s!"cron_schedule id {row.id}" "generation is out of range")

def timeoutCheckFailed : AtmError :=
  writeError "cron_schedule" "CHECK constraint failed: timeout_ms > 0" .cronScheduleCheck

def insertSchedule (schedule : NewCronSchedule) (schedules : Table CronScheduleRow.id) :
    Except AtmError (Nat × Table CronScheduleRow.id) :=
  let id := nextCronId schedules
  if schedule.timeoutMs = 0 then .error timeoutCheckFailed
  else if 2 ^ 63 ≤ id then .error (.mailboxWrite "failed to write cron_schedule")
  else
    match schedules.insertNew (schedule.fill id 1) with
    | some schedules => .ok (id, schedules)
    | none => .error (writeError "cron_schedule" "UNIQUE constraint failed: cron_schedule.id" .cronScheduleKey)

def restartSchedule (schedule : NewCronSchedule) (id : Nat) (schedules : Table CronScheduleRow.id) :
    Except AtmError (Table CronScheduleRow.id) :=
  if schedule.timeoutMs = 0 then .error timeoutCheckFailed
  else .ok (schedules.mapRows
    (fun row => if row.id = id then schedule.fill row.id (row.generation + 1) else row)
    (fun row => by split <;> rfl))

/-- The row `start` reads back before it returns. -/
def readStarted (id : Nat) (schedules : Table CronScheduleRow.id) :
    Except AtmError (CronScheduleRow × Table CronScheduleRow.id) :=
  match schedules.find? id with
  | some row => do
    let row ← decodeGeneration row
    return (row, schedules)
  | none => .error (storedRowInternal s!"cron_schedule id {id}" "row missing after start")

def startSchedule (schedule : NewCronSchedule) (schedules : Table CronScheduleRow.id) :
    Except AtmError (CronScheduleRow × Table CronScheduleRow.id) := do
  let (id, schedules) ←
    match schedules.rows.find? (fun row => decide (row.slot = (schedule.team, schedule.phase, schedule.name))) with
    | some row =>
      if row.active then
        .error (.validationWithRecovery
          s!"cron schedule {schedule.name} already active for phase {schedule.phase.val}"
          s!"run atm cron end --phase {schedule.phase.val} {schedule.name} first")
      else (restartSchedule schedule row.id schedules).map (fun schedules => (row.id, schedules))
    | none => insertSchedule schedule schedules
  readStarted id schedules

def endsSchedule (team : TeamName) (phase : PhaseId) (name : Option String) (row : CronScheduleRow) : Bool :=
  decide (row.team = team) && decide (row.phase = phase) && row.active &&
    name.all (fun name => decide (row.name = name))

def endSchedules (team : TeamName) (phase : PhaseId) (name : Option String) (instant : IsoTimestamp)
    (schedules : Table CronScheduleRow.id) : Except AtmError (List CronScheduleRow × Table CronScheduleRow.id) := do
  let selected ← (schedules.rows.filter (endsSchedule team phase name)).mapM decodeGeneration
  return (selected.map (fun row => { row with active := false, endedAt := some instant }),
    schedules.mapRows
      (fun row => if endsSchedule team phase name row then
        { row with active := false, endedAt := some instant } else row)
      (fun row => by split <;> rfl))

/-- `WHERE id = ? AND generation = ? AND active = 1`. -/
def runsAt (id generation : Nat) (row : CronScheduleRow) : Bool :=
  decide (row.id = id) && decide (row.generation = generation) && row.active

/-- An update of the schedule of a run that is still current. -/
def updateRun (id generation : Nat) (set : CronScheduleRow → CronScheduleRow)
    (hset : ∀ row, (set row).id = row.id) (schedules : Table CronScheduleRow.id) :
    Table CronScheduleRow.id :=
  schedules.mapRows (fun row => if runsAt id generation row then set row else row) (by
    intro row
    split
    · exact hset row
    · rfl)

def recordRun (id : Nat) (generation : CronGeneration) (instant : IsoTimestamp) (outcome : String)
    (schedules : Table CronScheduleRow.id) : Bool × Table CronScheduleRow.id :=
  if 2 ^ 63 ≤ id then (false, schedules)
  else ((schedules.find? id).any (runsAt id generation.get),
    updateRun id generation.get
      (fun row => { row with lastRunAt := some instant, lastOutcome := some outcome }) (fun _ => rfl) schedules)

def recordStop (id : Nat) (generation : CronGeneration) (instant : IsoTimestamp) (reason : String)
    (schedules : Table CronScheduleRow.id) : Bool × Table CronScheduleRow.id :=
  if 2 ^ 63 ≤ id then (false, schedules)
  else ((schedules.find? id).any (runsAt id generation.get),
    updateRun id generation.get
      (fun row => { row with
        active := false
        endedAt := some instant
        lastOutcome := some ("stopped: " ++ reason) }) (fun _ => rfl) schedules)

structure CronTransitionWrite where
  id : Nat
  generation : CronGeneration
  instant : IsoTimestamp
  transition : CronRunTransition
  outputs : List CronModuleOutput

inductive CronCommitResult where
  | applied (intents : List CronDeliveryIntent)
  | staleGeneration
  deriving DecidableEq

/-- `failure_columns`. -/
def CronRunTransition.kind : CronRunTransition → CronEventKind
  | success _ => .success
  | stopCheckContinues => .continue
  | failure _ => .failure
  | stopped _ => .stopped
  | skippedInFlight => .skipped

def CronRunTransition.failure? : CronRunTransition → Option CronFailure
  | failure f => some f
  | _ => none

def lifecycleEvent : CronRunTransition → Option CronLifecycleEvent
  | .failure failure => some (.error failure)
  | .stopped reason => some (.stopped reason)
  | _ => none

/-- The text of `last_outcome`; a continuing stop check writes none. -/
def transitionOutcome : CronRunTransition → Option String
  | .success .ok => some "ok"
  | .success (.actions count) => some s!"actions:{count}"
  | .failure failure => some ("failure:" ++ failure.detail)
  | .stopped reason => some ("stopped: " ++ reason)
  | .stopCheckContinues | .skippedInFlight => none

def storeQueryFailed (detail : String) : AtmError := .new .storeQueryFailed detail

def cronEventsOf (events : List CronEventRow) (id generation : Nat) : List CronEventRow :=
  events.filter (fun e => decide (e.scheduleId = id) && decide (e.generation = generation))

/-- `SELECT MAX(transition_seq)`, 0 without one. -/
def lastTransitionSeq (events : List CronEventRow) (id generation : Nat) : Nat :=
  ((cronEventsOf events id generation).map CronEventRow.transitionSeq).foldr max 0

/-- `ORDER BY transition_seq DESC LIMIT 1`. -/
def lastCronEvent (events : List CronEventRow) (id generation : Nat) : Option CronEventRow :=
  (cronEventsOf events id generation).find?
    (fun e => decide (e.transitionSeq = lastTransitionSeq events id generation))

/-- The failure of the last event. Its kind and detail are read as text that is not optional, so the read
fails on an event that has none. -/
def priorFailure (events : List CronEventRow) (id generation : Nat) : Except AtmError (Option CronFailure) :=
  match lastCronEvent events id generation with
  | none => .ok none
  | some event =>
    match event.failureKind, event.failureDetail with
    | some kind, some detail => .ok (some ⟨kind, event.failureCode, detail⟩)
    | _, _ => .error ((storeQueryFailed
        "failed to read prior cron failure: Invalid column type Null").withCause (.conversion "failure_kind"))

def cronNameMaxBytes : Nat := 64

def parseCronName (name : String) : Except AtmError String :=
  if name.utf8ByteSize = 0 ∨ cronNameMaxBytes < name.utf8ByteSize then
    .error (storedRowInternal "cron_transition_event" "name must contain 1..=64 bytes")
  else .ok name

def CronTransitionWrite.event (write : CronTransitionWrite) (seq : Nat) : CronEventRow where
  scheduleId := write.id
  generation := write.generation.get
  transitionSeq := seq
  transitionAt := write.instant
  kind := write.transition.kind
  failureKind := write.transition.failure?.map CronFailure.kind
  failureCode := write.transition.failure?.bind CronFailure.code
  failureDetail := write.transition.failure?.map CronFailure.detail

def insertCronEvent (event : CronEventRow) (events : List CronEventRow) : Except AtmError (List CronEventRow) :=
  if events.any (fun e => decide (e.scheduleId = event.scheduleId) &&
      decide (e.generation = event.generation) && decide (e.transitionAt = event.transitionAt)) then
    .error (writeError "cron_transition_event"
      ("UNIQUE constraint failed: cron_transition_event.schedule_id, " ++
        "cron_transition_event.generation, cron_transition_event.transition_at") .cronTransitionAt)
  else .ok (events ++ [event])

/-- The update of the schedule a transition makes: its last outcome, and the end when it stopped. -/
def applyTransitionOutcome (write : CronTransitionWrite) (schedules : Table CronScheduleRow.id) :
    Table CronScheduleRow.id :=
  match transitionOutcome write.transition with
  | none => schedules
  | some outcome =>
    updateRun write.id write.generation.get
      (fun row => { row with
        lastRunAt := some write.instant
        lastOutcome := some outcome
        endedAt := if write.transition.kind = .stopped then some write.instant else row.endedAt
        active := if write.transition.kind = .stopped then false else row.active })
      (fun _ => rfl) schedules

/-- The intents of the outputs from `index` on; an index is a `u16`. -/
def moduleMailIntents (write : CronTransitionWrite) (row : CronScheduleRow) (seq : Nat)
    (fresh : Nat → AtmMessageId) : Nat → List CronModuleOutput → Except AtmError (List CronDeliveryIntent)
  | _, [] => .ok []
  | index, output :: outputs => do
    if 2 ^ 16 ≤ index then .error (.validation "cron transition has too many outputs")
    else
      let name ← parseCronName row.name
      let rest ← moduleMailIntents write row seq fresh (index + 1) outputs
      return {
        scheduleId := write.id
        generation := write.generation.get
        transitionSeq := seq
        outputIndex := some index
        team := row.team
        recipient := row.createdBy
        name := name
        payload := .moduleMail (fresh index) output } :: rest

/-- The lifecycle notice of a transition, unless it repeats the failure before it. -/
def lifecycleIntents (write : CronTransitionWrite) (row : CronScheduleRow) (seq : Nat)
    (prior : Option CronFailure) : Except AtmError (List CronDeliveryIntent) :=
  match lifecycleEvent write.transition with
  | none => .ok []
  | some event =>
    if write.transition.failure?.isSome && decide (write.transition.failure? = prior) then .ok []
    else do
      let name ← parseCronName row.name
      return [{
        scheduleId := write.id
        generation := write.generation.get
        transitionSeq := seq
        outputIndex := none
        team := row.team
        recipient := row.createdBy
        name := name
        payload := .lifecycle event }]

/-- `cron_delivery_intent_delivery_key`: the kind follows from the presence of an output index. -/
def sameDelivery (a b : CronDeliveryIntent) : Bool :=
  decide (a.scheduleId = b.scheduleId) && decide (a.generation = b.generation) &&
    decide (a.transitionSeq = b.transitionSeq) && decide (a.outputIndex = b.outputIndex)

def persistIntents : List CronDeliveryIntent → List CronIntentRow → Except AtmError (List CronIntentRow)
  | [], stored => .ok stored
  | intent :: intents, stored =>
    if stored.any (fun row => sameDelivery row.intent intent) then
      .error (storeQueryFailed "failed to persist cron delivery intent: UNIQUE constraint failed")
    else persistIntents intents (stored ++ [⟨intent, .pending, none, none⟩])

/-- `CronTransitionStore::commit`, in one transaction: an error leaves nothing. -/
def commitTransition (write : CronTransitionWrite) (fresh : Nat → AtmMessageId) (db : Db) :
    Except AtmError (CronCommitResult × Db) :=
  if write.transition = .skippedInFlight then .ok (.applied [], db)
  else if 2 ^ 63 ≤ write.id then .error (.validation "cron schedule id exceeds SQLite range")
  else
    match (db.cronSchedules.find? write.id).filter (runsAt write.id write.generation.get) with
    | none => .ok (.staleGeneration, db)
    | some row => do
      let prior ← match write.transition.kind with
        | .failure => priorFailure db.cronEvents write.id write.generation.get
        | _ => .ok none
      let seq := lastTransitionSeq db.cronEvents write.id write.generation.get + 1
      let events ← insertCronEvent (write.event seq) db.cronEvents
      let lifecycle ← lifecycleIntents write row seq prior
      let mails ← moduleMailIntents write row seq fresh 0 write.outputs
      let stored ← persistIntents (lifecycle ++ mails) db.cronIntents
      return (.applied (lifecycle ++ mails), { db with
        cronSchedules := applyTransitionOutcome write db.cronSchedules
        cronEvents := events
        cronIntents := stored })

inductive DeliveryReceipt where
  | accepted (receiptId : String)
  | suppressed
  | recipientUnavailable
  | unknown (retryCause : String)
  deriving DecidableEq

def DeliveryReceipt.mark (receipt : DeliveryReceipt) (row : CronIntentRow) : CronIntentRow :=
  match receipt with
  | accepted receiptId => { row with state := .delivered, receipt := some receiptId, retryCause := none }
  | suppressed => { row with state := .suppressed, receipt := none, retryCause := none }
  | recipientUnavailable =>
    { row with state := .recipientUnavailable, receipt := none, retryCause := none }
  | unknown retryCause => { row with state := .unknown, receipt := none, retryCause := some retryCause }

/-- `CronTransitionStore::mark_delivered`, on the pending intents of a delivery key. -/
def markDelivered (id generation seq : Nat) (outputIndex : Option Nat) (receipt : DeliveryReceipt)
    (intents : List CronIntentRow) : List CronIntentRow :=
  intents.map (fun row =>
    if row.intent.scheduleId = id ∧ row.intent.generation = generation ∧ row.intent.transitionSeq = seq ∧
        row.intent.outputIndex = outputIndex ∧ row.state = .pending then receipt.mark row
    else row)

end AtmCore
