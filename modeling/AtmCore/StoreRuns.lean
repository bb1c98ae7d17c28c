import AtmCore.CronCommit
import AtmCore.LedgerReminders
import AtmCore.LedgerWrites

/-! Runs of the store: any interleaving of queued writes, of batches with the failures of their transactions, of moves
by their origin, of the reminder bookkeeping, of roster changes and of the cron store. Every clock reading, fresh id and
row order is part of the step. In every state a member's open tasks hold the positions `1..n`, and no statement of an
operation meets the unique index over them on its way. -/

namespace AtmCore

open Rows TaskColumns

inductive CronOp where
  | start (schedule : NewCronSchedule)
  | end (team : TeamName) (phase : PhaseId) (name : Option String) (instant : IsoTimestamp)
  | recordRun (id : Nat) (generation : CronGeneration) (instant : IsoTimestamp) (outcome : String)
  | recordStop (id : Nat) (generation : CronGeneration) (instant : IsoTimestamp) (reason : String)
  | commit (write : CronTransitionWrite) (fresh : Nat → AtmMessageId)
  | markDelivered (id generation seq : Nat) (outputIndex : Option Nat) (receipt : DeliveryReceipt)

def CronOp.apply (op : CronOp) (db : Db) : Db :=
  match op with
  | .start schedule =>
    match startSchedule schedule db.cronSchedules with
    | .ok (_, schedules) => { db with cronSchedules := schedules }
    | .error _ => db
  | .end team phase name instant =>
    match endSchedules team phase name instant db.cronSchedules with
    | .ok (_, schedules) => { db with cronSchedules := schedules }
    | .error _ => db
  | .recordRun id generation instant outcome =>
    { db with cronSchedules := (AtmCore.recordRun id generation instant outcome db.cronSchedules).2 }
  | .recordStop id generation instant reason =>
    { db with cronSchedules := (AtmCore.recordStop id generation instant reason db.cronSchedules).2 }
  | .commit write fresh =>
    match commitTransition write fresh db with
    | .ok (_, written) => written
    | .error _ => db
  | .markDelivered id generation seq outputIndex receipt =>
    { db with cronIntents := AtmCore.markDelivered id generation seq outputIndex receipt db.cronIntents }

inductive StoreOp where
  | write (queued : QueuedWrite)
  | batch (openError commitError : Option AtmError) (writes : List QueuedWrite)
  | move (ambient : Ambient) (team : TeamName) (taskId : TaskId) (actor : AgentName) (target : MoveTarget)
      (instant : IsoTimestamp) (origin : MessageWriteOrigin)
  | remind (order : RowOrder) (member : MemberKey) (taskId : TaskId) (reminder : ReminderWrite)
  | saveRoster (roster : Table RosterRow.member)
  | cron (op : CronOp)

def StoreOp.apply (world : World) (op : StoreOp) (db : Db) : Db :=
  match op with
  | .write queued => (processQueuedWrite world queued db).2
  | .batch openError commitError writes => (processBatch world openError commitError writes db).2
  | .move ambient team taskId actor target instant origin =>
    (moveTaskWithOrigin world ambient team taskId actor target instant origin db).2
  | .remind order member taskId reminder =>
    match reminder.run order member taskId db with
    | .ok (_, written) => written
    | .error _ => db
  | .saveRoster roster => { db with teamRoster := roster }
  | .cron op => op.apply db

def run (world : World) (ops : List StoreOp) (db : Db) : Db :=
  ops.foldl (fun db op => op.apply world db) db

variable {world : World} {ops : List StoreOp}

@[simp] theorem run_cons {op : StoreOp} {db : Db} :
    run world (op :: ops) db = run world ops (op.apply world db) := rfl

/-- A run of the store leads from the one database to the other. -/
def Runs (world : World) (db db' : Db) : Prop := ∃ ops, run world ops db = db'

theorem runs_run (world : World) (ops : List StoreOp) (db : Db) : Runs world db (run world ops db) := ⟨ops, rfl⟩

theorem Runs.refl (world : World) (db : Db) : Runs world db db := ⟨[], rfl⟩

variable {db : Db} {ledger : Ledger} {writes : List QueuedWrite}

theorem Runs.trans {db' db'' : Db} (h : Runs world db db') (h' : Runs world db' db'') : Runs world db db'' := by
  obtain ⟨ops, rfl⟩ := h
  obtain ⟨ops', rfl⟩ := h'
  exact ⟨ops ++ ops', List.foldl_append⟩

/-- What every step keeps holds in every state of a run. -/
theorem run_invariant {P : Db → Prop} (hstep : ∀ (op : StoreOp) db, P db → P (op.apply world db))
    (ops : List StoreOp) (h : P db) : P (run world ops db) := by
  induction ops generalizing db with
  | nil => exact h
  | cons op ops ih => exact ih (hstep op db h)

/-- The database with an empty ledger, whatever else it holds. -/
def Db.withoutTasks (db : Db) : Db := { db with tasks := .empty, taskEvents := [] }

/-- The database with an empty cron store, whatever else it holds. -/
def Db.withoutCron (db : Db) : Db := { db with cronSchedules := .empty, cronEvents := [], cronIntents := [] }

/-- The acts behind a step of the store, each of them at most once and in this order. -/
inductive StoreOp.Plan : StoreOp → List LedgerAct → Prop where
  | write {queued : QueuedWrite} {plan : List LedgerAct} (hplan : queued.Plan plan) : Plan (.write queued) plan
  | batch {openError commitError : Option AtmError} {writes : List QueuedWrite}
      {plans : List (List LedgerAct)} (hplans : List.Forall₂ QueuedWrite.Plan writes plans) :
      Plan (.batch openError commitError writes) plans.flatten
  | move {ambient : Ambient} {team : TeamName} {taskId : TaskId} {actor : AgentName} {target : MoveTarget}
      {instant : IsoTimestamp} {origin : MessageWriteOrigin} {plan : List LedgerAct}
      (hplan : QueuedWrite.Plan ⟨.taskMove team taskId actor target instant origin, ambient⟩ plan) :
      Plan (.move ambient team taskId actor target instant origin) plan
  | remind {order : RowOrder} {member : MemberKey} {taskId : TaskId} {reminder : ReminderWrite} :
      Plan (.remind order member taskId reminder) [.reminder]
  | idle (op : StoreOp) : Plan op []

/-- The ledger went along a path of acts of the plan. -/
def Reaches (plan : List LedgerAct) (ledger : Ledger) (db : Db) : Prop :=
  ∃ acts ledger', acts.Sublist plan ∧ LedgerPath acts ledger ledger' ∧ Represents db ledger'

theorem Reaches.refl {plan : List LedgerAct} (h : Represents db ledger) : Reaches plan ledger db :=
  ⟨[], ledger, List.nil_sublist plan, .refl ledger, h⟩

theorem CronOp.apply_eq (op : CronOp) : ∃ schedules events intents,
    op.apply db = { db with cronSchedules := schedules, cronEvents := events, cronIntents := intents } := by
  cases op with
  | start schedule =>
    simp only [CronOp.apply]
    split <;> exact ⟨_, _, _, rfl⟩
  | «end» team phase name instant =>
    simp only [CronOp.apply]
    split <;> exact ⟨_, _, _, rfl⟩
  | recordRun | recordStop | markDelivered => exact ⟨_, _, _, rfl⟩
  | commit write fresh =>
    simp only [CronOp.apply]
    cases hrun : commitTransition write fresh db with
    | error error => exact ⟨_, _, _, rfl⟩
    | ok result =>
      obtain ⟨result, written⟩ := result
      cases commitTransition_eq_ok_iff.mp hrun with
      | skipped | stale => exact ⟨_, _, _, rfl⟩
      | applied _ _ _ hrecords =>
        obtain ⟨events, stored, -, -, rfl⟩ := hrecords.stored
        exact ⟨_, _, _, rfl⟩

theorem CronOp.apply_sameLedger (op : CronOp) (db : Db) : SameLedger db (op.apply db) := by
  obtain ⟨schedules, events, intents, heq⟩ := op.apply_eq
  exact heq ▸ ⟨rfl, rfl⟩

theorem StoreOp.remind_writesLedger {order : RowOrder} {member : MemberKey} {taskId : TaskId}
    {reminder : ReminderWrite} : WritesLedger db ((StoreOp.remind order member taskId reminder).apply world db) := by
  simp only [StoreOp.apply]
  cases hrun : reminder.run order member taskId db with
  | error fault => exact ⟨db.tasks, db.taskEvents, rfl⟩
  | ok result => exact (reminder.run_eq).of_eq_ok hrun

theorem runSingly_reaches : ∀ {db : Db} {ledger : Ledger}, Represents db ledger →
      ∃ plans, List.Forall₂ QueuedWrite.Plan writes plans ∧
        Reaches plans.flatten ledger (Batching.runSingly (processQueuedWrite world) writes db).2 := by
  induction writes with
  | nil => exact fun h => ⟨[], .nil, .refl h⟩
  | cons queued writes ih =>
    intro db ledger h
    obtain ⟨plan, rows, hplan, hadv, -⟩ := processQueuedWrite_spec h
    obtain ⟨acts, ledger', hacts, hpath, hrep⟩ := hadv.path
    obtain ⟨plans, hplans, acts', ledger'', hacts', hpath', hrep'⟩ := ih hrep
    exact ⟨plan :: plans, .cons hplan hplans, acts ++ acts', ledger'', hacts.append hacts',
      hpath.append hpath', hrep'⟩

/-- Every step of the store takes the ledger along a path of its acts. -/
theorem StoreOp.apply_reaches (op : StoreOp) (h : Represents db ledger) :
    ∃ plan, op.Plan plan ∧ Reaches plan ledger (op.apply world db) := by
  have hq : ∀ queued : QueuedWrite, ∃ plan, queued.Plan plan ∧
      Reaches plan ledger (processQueuedWrite world queued db).2 := by
    intro queued
    obtain ⟨plan, rows, hplan, hadv, -⟩ := processQueuedWrite_spec h
    exact ⟨plan, hplan, hadv.path⟩
  cases op with
  | write queued =>
    obtain ⟨plan, hplan, hreaches⟩ := hq queued
    exact ⟨plan, .write hplan, hreaches⟩
  | batch openError commitError writes =>
    rw [StoreOp.apply, processBatch_snd]
    split
    · obtain ⟨plans, hplans, hreaches⟩ := runSingly_reaches h
      exact ⟨plans.flatten, .batch hplans, hreaches⟩
    · exact ⟨[], .idle _, .refl h⟩
  | move ambient team taskId actor target instant origin =>
    obtain ⟨plan, hplan, hreaches⟩ := hq ⟨.taskMove team taskId actor target instant origin, ambient⟩
    cases origin with
    | peer => exact ⟨[], .idle _, .refl h⟩
    | «local» => exact ⟨plan, .move hplan, hreaches⟩
    | cronRun id generation => exact ⟨plan, .move hplan, hreaches⟩
  | remind order member taskId reminder =>
    simp only [StoreOp.apply]
    have hspec := reminder.run_spec h order member taskId
    cases hrun : reminder.run order member taskId db with
    | error fault => exact ⟨[], .idle _, .refl h⟩
    | ok result =>
      obtain ⟨row, hload, hrep, -⟩ := hspec.of_eq_ok hrun
      exact ⟨[.reminder], .remind, [.reminder], _, .refl _,
        .single (.reminder reminder member taskId row (h.pictured.task_eq hload)), hrep⟩
  | saveRoster roster => exact ⟨[], .idle _, .refl (h.congr ⟨rfl, rfl⟩)⟩
  | cron op => exact ⟨[], .idle _, .refl (h.congr (op.apply_sameLedger db))⟩

theorem represents_withoutTasks : Represents db.withoutTasks Ledger.empty where
  pictured := by
    refine ⟨⟨?_, ?_⟩, fun k => rfl, fun m _ => ⟨?_, ?_, List.Pairwise.nil⟩, fun m _ => by simp [Ledger.empty]⟩
    · intro row hrow
      cases hrow
    · intro row hrow
      cases hrow
    · rintro id row ⟨hfind, -⟩
      cases hfind
    · intro id hid
      cases hid
  log key := rfl

/-- A run takes the ledger along a path of the acts of its steps, in their order. -/
theorem run_reaches : ∀ {db : Db} {ledger : Ledger}, Represents db ledger →
      ∃ plans, List.Forall₂ StoreOp.Plan ops plans ∧ Reaches plans.flatten ledger (run world ops db) := by
  induction ops with
  | nil => exact fun h => ⟨[], .nil, .refl h⟩
  | cons op ops ih =>
    intro db ledger h
    obtain ⟨plan, hplan, acts, ledger', hacts, hpath, hrep⟩ := op.apply_reaches h
    obtain ⟨plans, hplans, acts', ledger'', hacts', hpath', hrep'⟩ := ih hrep
    exact ⟨plan :: plans, .cons hplan hplans, acts ++ acts', ledger'', hacts.append hacts',
      hpath.append hpath', hrep'⟩

/-- Every state of a run from an empty ledger represents a ledger that steps reach. -/
theorem run_represents : ∃ acts ledger, LedgerPath acts Ledger.empty ledger ∧
      Represents (run world ops db.withoutTasks) ledger := by
  obtain ⟨plans, -, acts, ledger, -, hpath, hrep⟩ := run_reaches (represents_withoutTasks)
  exact ⟨acts, ledger, hpath, hrep⟩

/-- In every run a queued write takes the abstract ledger along acts of its plan, and its reply accounts for what the
log grew by. -/
theorem writes_refine_ledger (world : World) (ops : List StoreOp) (db : Db) (queued : QueuedWrite) :
    let reached := run world ops db.withoutTasks
    let (reply, written) := processQueuedWrite world queued reached
    ∃ acts ledger plan rows, LedgerPath acts .empty ledger ∧ Represents reached ledger ∧ queued.Plan plan ∧
      Advances plan reached ledger written rows ∧ ∀ reported ∈ Reply.taskEvents? reply, rows = reported := by
  obtain ⟨acts, ledger, hpath, hrep⟩ := @run_represents world ops db
  obtain ⟨plan, rows, hspec⟩ := processQueuedWrite_spec hrep
  exact ⟨acts, ledger, plan, rows, hpath, hrep, hspec⟩

theorem TaskColumns.outcome_of_wellFormed {row : TaskColumns} (h : row.wellFormed = true) :
    (row.isOpen = false → row.position = none ∧ row.closeOutcome.isSome = true) ∧
      (row.isOpen = true → row.closeOutcome = none) := by
  obtain ⟨-, hout, hpos⟩ := wellFormed_iff.mp h
  refine ⟨fun hcl => ?_, fun hopen => ?_⟩
  · have hstate : row.state = .complete := by simpa [TaskColumns.isOpen] using hcl
    exact ⟨hpos.mp hstate, hout.mp hstate⟩
  · have hstate : row.state ≠ .complete := by simpa [TaskColumns.isOpen] using hopen
    by_contra hsome
    exact hstate (hout.mpr (Option.isSome_iff_ne_none.mpr hsome))

theorem Represents.positions {db : Db} {ledger : Ledger} (h : Represents db ledger) (team : TeamName)
    (member : AgentName) : ((openRows db.tasks team member).map TaskColumns.position).Perm
      ((List.range' 1 (openRows db.tasks team member).length).map some) := by
  have hq := h.pictured.queued ⟨team, member⟩
  rw [Ranked.length_eq hq]
  exact Queued.positions hq

/-- In every state of a run from an empty ledger the positions of every member's open tasks are `1..n`, a
complete row has an outcome and no position and an open one no outcome, and no operation is aborted by
the unique index, whatever the order in which the statements take their rows. -/
theorem queues_contiguous (world : World) (ops : List StoreOp) (db : Db) :
    let reached := run world ops db.withoutTasks
    (∀ team member, ((openRows reached.tasks team member).map TaskColumns.position).Perm
        ((List.range' 1 (openRows reached.tasks team member).length).map some)) ∧
    (∀ row ∈ reached.tasks.rows, (row.isOpen = false → row.position = none ∧ row.closeOutcome.isSome = true) ∧
      (row.isOpen = true → row.closeOutcome = none)) ∧
    (∀ ambient op fault, execute world ambient op reached = .error fault → fault.sparesQueueIndex) ∧
    (∀ (reminder : ReminderWrite) order member taskId fault,
      reminder.run order member taskId reached = .error fault → fault.sparesQueueIndex) := by
  intro reached
  obtain ⟨acts, ledger, -, hrep⟩ := run_represents
  refine ⟨hrep.positions, fun row hrow => ?_, ?_, ?_⟩
  · exact outcome_of_wellFormed (taskGuard_check_eq_none_iff.mp (hrep.pictured.sound.check row hrow))
  · intro ambient op fault herror
    exact (execute_spec hrep world ambient op).of_eq_error herror
  · intro reminder order member taskId fault herror
    exact (reminder.run_spec hrep order member taskId).of_eq_error herror

/-! A small store on which closed statements are evaluated. -/

section Sample

def World.accepting : World where
  envelopeJsonLen _ := 0
  validateTemplate _ := .ok ()
  validateWorkflow _ := .ok ()
  validateTemplate_cause _ _ h := by cases h
  validateWorkflow_cause _ _ h := by cases h
  validateTemplate_code _ _ h := by cases h
  validateWorkflow_code _ _ h := by cases h

def RowOrder.natural : RowOrder := ⟨fun _ keys => keys, fun _ keys => .refl keys⟩

def Ambient.steady : Ambient where
  clock _ := ⟨0⟩
  fresh n := ⟨(1000 + n) % 2 ^ 128, Nat.mod_lt _ (by decide)⟩
  audit := ⟨0⟩
  rowOrder := .natural

def sampleTeam : TeamName := ⟨"test-team", by decide⟩
def sampleLead : AgentName := ⟨"team-lead", by decide⟩
def sampleMember : AgentName := ⟨"arch-ctm", by decide⟩
def sampleTask : TaskId := ⟨"T-1", by decide⟩

def sampleId (n : Nat) : AtmMessageId := ⟨n % 10, by omega⟩

/-- A plain message under the `n`-th message id. -/
def sampleMessage (sender agent : AgentName) (n : Nat) : Message where
  team := sampleTeam
  agent := agent
  messageKey := .fromAtmMessageId (sampleId n)
  envelope := {
    «from» := sender
    sourceChatId := none
    text := ""
    timestamp := ⟨0⟩
    read := false
    sourceTeam := none
    destinationChatId := none
    summary := none
    messageId := some (sampleId n)
    requiresAck := false
    pendingAckAt := none
    acknowledgedAt := none
    acknowledgesMessageId := none
    parentMessageId := none
    threadMode := none
    expiresAt := none
    taskId := none
    placement := none
    taskOp := none
    taskComplete := none
    extra := [] }

/-- The message as an update of the one under the `parent`-th id. -/
def sampleUpdate (mode : ThreadMode) (parent : Nat) (message : Message) : Message :=
  { message with envelope := { message.envelope with
    parentMessageId := some (sampleId parent), threadMode := some mode } }

def sampleTaskMessage (sender agent : AgentName) (n : Nat) (op : Option TaskOp) : Message :=
  let message := sampleMessage sender agent n
  { message with envelope := { message.envelope with taskId := some sampleTask, taskOp := op } }

def sampleWrite (message : Message) : StoreOp := .write ⟨.upsertMessage message .local, .steady⟩

end Sample

end AtmCore
