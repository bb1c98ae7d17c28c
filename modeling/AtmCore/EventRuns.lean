import AtmCore.StoreRuns

/-! Reading the log back. Every event the writer appends is read as the event it returned. The reminder
bookkeeping writes its events without an outcome, so on a complete task, and only there, what it
appends cannot be read, and neither can the log of that task from then on. -/

namespace AtmCore

open Fallible List

variable {member : MemberKey} {taskId : TaskId} {row : TaskEventRow}

theorem ReminderWrite.decode_of_complete (write : ReminderWrite)
    {seq : Nat} {state : TaskState} (hopen : state.isOpen = false) :
    decodeEventRow ((write.draft member taskId state).columns seq) ≠ .ok row := by
  intro h
  have hstate : state.tag = .complete := by
    cases state with
    | assigned | active => cases hopen
    | complete outcome => rfl
  have hfail : decodeEventState (some state.tag) none = .error (.conversion "task state") := by
    rw [hstate, decodeEventState_eq]
    rfl
  obtain ⟨_, -, h⟩ := bind_eq_ok.mp h
  obtain ⟨_, -, h⟩ := bind_eq_ok.mp h
  obtain ⟨_, -, h⟩ := bind_eq_ok.mp h
  obtain ⟨_, -, h⟩ := bind_eq_ok.mp h
  obtain ⟨fromState, hfrom, -⟩ := bind_eq_ok.mp h
  exact nomatch hfail.symm.trans hfrom

variable {events : List TaskEventColumns}

theorem Reported.singleton_iff {columns : TaskEventColumns} :
    Reported events (events ++ [columns]) [row] ↔ decodeEventRow columns = .ok row := by
  constructor
  · rintro ⟨appended, heq, hrows⟩
    obtain rfl := append_cancel_left heq
    cases hrows with
    | cons hrow _ => exact hrow
  · exact fun h => ⟨_, rfl, .cons h .nil⟩

variable {db : Db} {ledger : Ledger}

theorem Reminds.reported_iff {write : ReminderWrite} {db' : Db}
    {event : TaskEventRow} (h : Reminds write member taskId db ledger event db') :
    Reported db.taskEvents db'.taskEvents [event] ↔
      (db.tasks.find? (member.team, taskId)).all TaskColumns.isOpen = true := by
  obtain ⟨row, hload, -, rfl, hevs⟩ := h
  obtain ⟨columns, hfind, hdecodes⟩ := hload.decodes row rfl
  rw [hevs, Reported.singleton_iff]
  rw [hfind, Option.all_some, hdecodes.isOpen]
  constructor
  · intro hdec
    by_contra hcl
    exact write.decode_of_complete (by simpa using hcl) hdec
  · exact write.decode_of_open

/-- Every stored event can be read. -/
def Readable (events : List TaskEventColumns) : Prop :=
  ∀ e ∈ events, ∃ row, decodeEventRow e = .ok row

theorem Reported.readable {events' : List TaskEventColumns} {rows : List TaskEventRow}
    (h : Reported events events' rows) (hevs : Readable events) : Readable events' := by
  obtain ⟨appended, rfl, hrows⟩ := h
  intro e he
  rcases mem_append.mp he with he | he
  · exact hevs e he
  · induction hrows with
    | nil => cases he
    | @cons columns row _ _ hrow _ ih =>
      rcases mem_cons.mp he with rfl | he
      · exact ⟨row, hrow⟩
      · exact ih (mem_append_right _ he) he

theorem Readable.listTaskEvents (h : Readable events) (team : TeamName)
    (taskId : TaskId) (assignee : Option AgentName) :
    ∃ rows, AtmCore.listTaskEvents events team taskId assignee = .ok rows := by
  unfold AtmCore.listTaskEvents
  dsimp only
  split
  · exact ⟨_, rfl⟩
  · next failure hfail =>
    obtain ⟨e, he, herr⟩ := mapM_eq_error hfail
    rw [mem_insertionSort] at he
    obtain ⟨row, hrow⟩ := h e (mem_of_mem_filter (mem_of_mem_filter he))
    exact nomatch herr.symm.trans hrow

/-- The step does not do reminder bookkeeping on a complete task. -/
def StoreOp.remindsOpen (op : StoreOp) (db : Db) : Bool :=
  match op with
  | .remind _ member taskId _ => (db.tasks.find? (member.team, taskId)).all TaskColumns.isOpen
  | _ => true

def remindsOpen (world : World) : List StoreOp → Db → Bool
  | [], _ => true
  | op :: ops, db => op.remindsOpen db && remindsOpen world ops (op.apply world db)

variable {world : World}

/-- What a step of the store appends can be read, unless it reminds of a complete task. -/
theorem StoreOp.apply_reported (op : StoreOp) (h : Represents db ledger) (hop : op.remindsOpen db = true) :
    ∃ ledger' rows, Represents (op.apply world db) ledger' ∧
      Reported db.taskEvents (op.apply world db).taskEvents rows := by
  have hq : ∀ (queued : QueuedWrite) (db' : Db),
      (∃ ledger' rows, Represents db' ledger' ∧ Reported db.taskEvents db'.taskEvents rows) →
      ∃ ledger' rows, Represents (processQueuedWrite world queued db').2 ledger' ∧
        Reported db.taskEvents (processQueuedWrite world queued db').2.taskEvents rows := by
    rintro queued db' ⟨ledger', rows, hrep, hreported⟩
    obtain ⟨plan, rows', -, hadv, -⟩ := processQueuedWrite_spec hrep
    obtain ⟨-, ledger'', -, -, hrep'⟩ := hadv.path
    exact ⟨ledger'', rows ++ rows', hrep', hreported.trans hadv.reported⟩
  have hself : ∃ ledger' rows, Represents db ledger' ∧ Reported db.taskEvents db.taskEvents rows :=
    ⟨ledger, [], h, .refl _⟩
  cases op with
  | write queued => exact hq queued db hself
  | batch openError commitError writes =>
    exact processBatch_keeps openError commitError (fun queued _ => hq queued) hself
  | move ambient team taskId actor target instant origin =>
    cases origin with
    | peer => exact hself
    | «local» => exact hq _ db hself
    | cronRun id generation => exact hq _ db hself
  | remind order member taskId reminder =>
    simp only [StoreOp.apply]
    cases hrun : reminder.run order member taskId db with
    | error fault => exact hself
    | ok result =>
      have hreminds := (reminder.run_spec h order member taskId).of_eq_ok hrun
      obtain ⟨row, -, hrep, -⟩ := id hreminds
      exact ⟨_, [result.1], hrep, hreminds.reported_iff.mpr hop⟩
  | saveRoster roster => exact ⟨ledger, [], h.congr ⟨rfl, rfl⟩, .refl _⟩
  | cron op =>
    have hsame := op.apply_sameLedger db
    refine ⟨ledger, [], h.congr hsame, ?_⟩
    rw [StoreOp.apply, hsame.events]
    exact .refl _

theorem run_readable {ops : List StoreOp} :
    ∀ {db : Db} {ledger : Ledger}, Represents db ledger → Readable db.taskEvents →
      remindsOpen world ops db = true → Readable (run world ops db).taskEvents := by
  induction ops with
  | nil => exact fun _ hread _ => hread
  | cons op ops ih =>
    intro db ledger h hread hops
    obtain ⟨hop, hops⟩ := Bool.and_eq_true_iff.mp hops
    obtain ⟨ledger', rows, hrep, hreported⟩ := op.apply_reported h hop
    exact ih hrep (hreported.readable hread) hops

/-- In every run from an empty ledger that does no reminder bookkeeping on a complete task, the events of
every task can be listed, and what a write appends is read back as the events it reported. The events
of a bookkeeping write are read back as it returned them exactly when the task is open. -/
theorem events_read_back (world : World) (ops : List StoreOp) (db : Db)
    (hops : remindsOpen world ops db.withoutTasks = true) :
    let reached := run world ops db.withoutTasks
    (∀ team taskId assignee, ∃ rows, listTaskEvents reached.taskEvents team taskId assignee = .ok rows) ∧
    (∀ queued, ∃ rows, Reported reached.taskEvents (processQueuedWrite world queued reached).2.taskEvents rows ∧
      ∀ reported, Reply.taskEvents? (processQueuedWrite world queued reached).1 = some reported →
        rows = reported) ∧
    (∀ (reminder : ReminderWrite) order member taskId event after,
      reminder.run order member taskId reached = .ok (event, after) →
      (Reported reached.taskEvents after.taskEvents [event] ↔
        (reached.tasks.find? (member.team, taskId)).all TaskColumns.isOpen = true)) := by
  intro reached
  obtain ⟨acts, ledger, -, hrep⟩ := run_represents
  have hread : Readable reached.taskEvents :=
    run_readable (represents_withoutTasks) (by simp [Readable, Db.withoutTasks]) hops
  refine ⟨hread.listTaskEvents, fun queued => ?_, fun reminder order member taskId event after hrun => ?_⟩
  · obtain ⟨plan, rows, -, hadvances, hreported⟩ := processQueuedWrite_spec hrep
    exact ⟨rows, hadvances.reported, hreported⟩
  · exact ((reminder.run_spec hrep order member taskId).of_eq_ok hrun).reported_iff

/-- A task that is assigned and reminded of while it is open. -/
theorem events_read_back_of_open_reminder :
    let ops := [sampleWrite (sampleTaskMessage sampleLead sampleMember 1 none),
      .remind .natural ⟨sampleTeam, sampleMember⟩ sampleTask (.reset ⟨0⟩)]
    remindsOpen .accepting ops Db.empty.withoutTasks = true ∧
      ∃ rows, listTaskEvents (run .accepting ops Db.empty.withoutTasks).taskEvents sampleTeam sampleTask none =
        .ok rows :=
  ⟨by decide +kernel, (events_read_back .accepting _ Db.empty (by decide +kernel)).1 sampleTeam sampleTask none⟩

/-- A task that is assigned, cancelled and then reminded of: its log has three events and cannot be listed. -/
theorem events_unreadable_after_reminder_on_complete :
    let ops := [sampleWrite (sampleTaskMessage sampleLead sampleMember 1 none),
      sampleWrite (sampleTaskMessage sampleLead sampleMember 2 (some (.close .cancelled none))),
      .remind .natural ⟨sampleTeam, sampleMember⟩ sampleTask (.reset ⟨0⟩)]
    let reached := run .accepting ops Db.empty.withoutTasks
    reached.taskEvents.length = 3 ∧
      (listTaskEvents reached.taskEvents sampleTeam sampleTask none).isOk = false := by
  decide +kernel

end AtmCore
