import AtmCore.LedgerReplay

/-! The reminder counters of a task against its log. The log counts every bookkeeping write, the row only those
made for its assignee; as long as every one is made for the assignee of the moment, the counters are
what the log says since the last event that resets them. -/

namespace AtmCore

open List Option

/-- The number of events of a kind after the last event of one of the other kinds. -/
def countSince (kind : TaskEventKind) (resets : List TaskEventKind) (events : List TaskEventColumns) : Nat :=
  (events.reverse.takeWhile (fun e => decide (e.event ∉ resets))).countP (fun e => decide (e.event = kind))

def tallies (events : List TaskEventColumns) : Nat × Nat :=
  (countSince .reminded [.assigned, .reassigned, .reopened, .remindersReset] events,
    countSince .leadNotified [.assigned, .reassigned, .reopened, .started] events)

def TaskColumns.counters (row : TaskColumns) : Nat × Nat := (row.reminderCount, row.leadNotifiedCount)

/-- What an event does to the two counts. -/
def TaskEventKind.tally : TaskEventKind → Nat × Nat → Nat × Nat
  | assigned, _ | reassigned, _ | reopened, _ => (0, 0)
  | remindersReset, counts => (0, counts.2)
  | started, counts => (counts.1, 0)
  | reminded, counts => (counts.1 + 1, counts.2)
  | leadNotified, counts => (counts.1, counts.2 + 1)
  | _, counts => counts

variable {events : List TaskEventColumns} {e : TaskEventColumns}

theorem countSince_append {kind : TaskEventKind} {resets : List TaskEventKind} :
    countSince kind resets (events ++ [e]) = if e.event ∈ resets then 0 else
      countSince kind resets events + if e.event = kind then 1 else 0 := by
  rw [countSince, reverse_append, reverse_singleton, singleton_append]
  by_cases hreset : e.event ∈ resets
  · rw [takeWhile_cons_of_neg (by simpa using hreset), if_pos hreset, countP_nil]
  · rw [takeWhile_cons_of_pos (by simpa using hreset), if_neg hreset, countP_cons]
    simp only [decide_eq_true_eq, countSince]

theorem tallies_append : tallies (events ++ [e]) = e.event.tally (tallies events) := by
  rw [tallies, countSince_append, countSince_append]
  cases he : e.event <;> simp [TaskEventKind.tally, tallies]

theorem assignmentEventKind_tally (row : Option TaskRow) (counts : Nat × Nat) :
    (assignmentEventKind row).tally counts = (0, 0) := by
  unfold assignmentEventKind
  split
  · rfl
  · split <;> rfl

def Ledger.Counted (ledger : Ledger) : Prop :=
  ∀ key row, ledger.task key = some row → row.counters = tallies (ledger.log key)

variable {ledger ledger' first second : Ledger} {draft : TaskEventDraft} {act : LedgerAct} {acts : List LedgerAct}

/-- A step that sets at most the task of its event, and logs it. -/
theorem Ledger.Counted.append (h : ledger.Counted) (hlog : ledger'.log = ledger.log)
    (hframe : ∀ k, k ≠ (draft.team, draft.taskId) → ledger'.task k = ledger.task k)
    (hrow : ∀ row, ledger'.task (draft.team, draft.taskId) = some row →
      row.counters = draft.event.tally (tallies (ledger.log (draft.team, draft.taskId)))) :
    (ledger'.append draft).Counted := by
  intro key row htask
  show row.counters = tallies (Function.update ledger'.log _ _ key)
  rw [hlog]
  by_cases hkey : key = (draft.team, draft.taskId)
  · subst hkey
    rw [Function.update_self, tallies_append]
    exact hrow row htask
  · rw [Function.update_of_ne hkey]
    exact h key row (hframe key hkey ▸ htask)

theorem Ledger.Counted.note (h : ledger.Counted) (hlog : ledger'.log = ledger.log)
    (htask : ledger'.task = ledger.task) (htally : ∀ counts, draft.event.tally counts = counts) :
    (ledger'.append draft).Counted := by
  refine h.append hlog (fun k _ => by rw [htask]) (fun row hrow => ?_)
  rw [htally]
  exact h _ row (htask ▸ hrow)

theorem Ledger.Counted.set (h : ledger.Counted) (row : TaskColumns) (hlog : ledger'.log = ledger.log)
    (htask : ledger'.task = (ledger.setTask row).task) (hkey : row.key = (draft.team, draft.taskId))
    (hrow : row.counters = draft.event.tally (tallies (ledger.log (draft.team, draft.taskId)))) :
    (ledger'.append draft).Counted := by
  refine h.append hlog (fun k hk => ?_) (fun stored hst => ?_)
  · rw [htask, Ledger.setTask_task_of_ne _ (hkey ▸ hk)]
  · rw [htask, Ledger.setTask_task_self _ hkey] at hst
    exact some.inj hst ▸ hrow

theorem Ledger.Counted.setTask (h : ledger.Counted) {row : TaskColumns}
    (hrow : row.counters = tallies (ledger.log row.key)) : (ledger.setTask row).Counted := by
  intro key stored hst
  by_cases hsame : key = row.key
  · subst hsame
    rw [Ledger.setTask_task_self _ rfl] at hst
    exact some.inj hst ▸ hrow
  · rw [Ledger.setTask_task_of_ne _ hsame] at hst
    exact h key stored hst

/-- A step of the ledger that is not a bookkeeping write keeps the counts. -/
theorem LedgerStep.counted (hstep : LedgerStep act first second) (hact : act ≠ .reminder) (htold : first.Told)
    (h : first.Counted) : second.Counted := by
  cases hstep with
  | refreshed record taskId messageId row hsubj hrow hopen hto hby =>
    have hkey : row.core.key = (record.team, taskId) := htold.keyed _ _ hrow
    refine h.setTask ?_
    show row.core.counters = tallies (first.log row.core.key)
    rw [hkey]
    exact h _ _ hrow
  | assigned record taskId messageId row placement index hsubj hrow hby hother hpl =>
    have hassigned : ((((first.release record taskId row).setTask
        (assignedColumns record taskId messageId)).enter ⟨record.team, record.agent⟩ taskId index).append
        (assignmentDraft record taskId row messageId .assigned)).Counted :=
      h.set (assignedColumns record taskId messageId) (by simp) (by simp [Ledger.setTask]) rfl
        (assignmentEventKind_tally row _).symm
    cases placement with
    | none => exact hassigned
    | some target => exact hassigned.note rfl rfl (fun _ => rfl)
  | started record taskId row hsubj hrow hstate hto =>
    have hkey : row.core.key = (record.team, taskId) := htold.keyed _ _ hrow
    have hreminders := congrArg Prod.fst (h _ _ hrow)
    exact h.set _ rfl rfl hkey (Prod.ext hreminders rfl)
  | closed record taskId row outcome reason hsubj hrow hopen hparties =>
    have hkey : row.core.key = (record.team, taskId) := htold.keyed _ _ hrow
    exact h.set _ rfl rfl hkey ((h _ _ hrow).trans (by cases outcome <;> rfl))
  | moved | kept => exact h.note rfl rfl (fun _ => rfl)
  | refused act draft row hrow hdraft => exact h.note rfl rfl (fun _ => by rw [hdraft.event]; rfl)
  | reminder => exact absurd rfl hact

theorem Ledger.Counted.remind (h : ledger.Counted) (htold : ledger.Told) (write : ReminderWrite) {member : MemberKey}
    {taskId : TaskId} {row : TaskRow} (hrow : ledger.task (member.team, taskId) = some row.core) :
    ((ledger.setTask (write.change row.core)).append (write.draft member taskId row.state)).Counted := by
  refine h.set (write.change row.core) rfl rfl ?_ ?_
  · exact write.change_fields.1.trans (htold.keyed _ _ hrow)
  · have hcns := h _ _ hrow
    have hreminders := congrArg Prod.fst hcns
    have hnotices := congrArg Prod.snd hcns
    cases write with
    | reminded instant outcome => exact Prod.ext (congrArg (· + 1) hreminders) hnotices
    | reset instant => exact Prod.ext rfl hnotices
    | leadNotified instant lead messageId => exact Prod.ext hreminders (congrArg (· + 1) hnotices)

theorem LedgerPath.counted (hpath : LedgerPath acts first second) (hacts : .reminder ∉ acts) (htold : first.Told)
    (h : first.Counted) : second.Told ∧ second.Counted := by
  induction hpath with
  | refl ledger => exact ⟨htold, h⟩
  | step hstep _ ih =>
    obtain ⟨hact, hrest⟩ := not_or.mp (fun hmem => hacts (mem_cons.mpr hmem))
    exact ih hrest (hstep.told htold) (hstep.counted (Ne.symm hact) htold h)

theorem MessageWriteOrigin.not_reminder {provenance : MessageWriteOrigin} {record : Message} :
    .reminder ∉ provenance.plan record := by
  unfold MessageWriteOrigin.plan
  split <;> simp

theorem WriteOp.Plan.not_reminder {op : WriteOp} (h : op.Plan acts) : .reminder ∉ acts := by
  cases h with
  | upsert | template => exact MessageWriteOrigin.not_reminder
  | batch | reply | move | idle => simp

theorem QueuedWrite.Plan.not_reminder {queued : QueuedWrite} (h : queued.Plan acts) : .reminder ∉ acts := by
  cases h with
  | audit => simp
  | op hplan => exact hplan.not_reminder

/-- Only the reminder pump makes bookkeeping writes. -/
theorem StoreOp.Plan.not_reminder {op : StoreOp} (h : op.Plan acts)
    (hop : ∀ order member taskId reminder, op ≠ .remind order member taskId reminder) : .reminder ∉ acts := by
  cases h with
  | write hplan | move hplan => exact hplan.not_reminder
  | batch hplans =>
    clear hop
    induction hplans with
    | nil => simp
    | cons hplan _ ih =>
      rw [flatten_cons, mem_append, not_or]
      exact ⟨hplan.not_reminder, ih⟩
  | remind => exact absurd rfl (hop _ _ _ _)
  | idle => simp

/-- A bookkeeping write is for the assignee that the task has. -/
def StoreOp.forAssignee (db : Db) : StoreOp → Bool
  | .remind _ member taskId _ => (db.tasks.find? (member.team, taskId)).all
      (fun row => decide (row.assignee = member.agent))
  | _ => true

def remindsAssignees (world : World) : List StoreOp → Db → Bool
  | [], _ => true
  | op :: ops, db => op.forAssignee db && remindsAssignees world ops (op.apply world db)

/-- The database represents a ledger whose counters agree with its log. -/
def CountsAgree (db : Db) : Prop := ∃ ledger, Represents db ledger ∧ ledger.Told ∧ ledger.Counted

theorem CountsAgree.apply {db : Db} (h : CountsAgree db) (world : World) (op : StoreOp)
    (hop : op.forAssignee db = true) : CountsAgree (op.apply world db) := by
  obtain ⟨ledger, hrep, htold, hcount⟩ := h
  by_cases hremind : ∃ order member taskId reminder, op = .remind order member taskId reminder
  · obtain ⟨order, member, taskId, reminder, rfl⟩ := hremind
    simp only [StoreOp.apply]
    cases hrun : reminder.run order member taskId db with
    | error fault => exact ⟨ledger, hrep, htold, hcount⟩
    | ok result =>
      obtain ⟨row, hload, hrep', -⟩ := (reminder.run_spec hrep order member taskId).of_eq_ok hrun
      have hrow := hrep.pictured.task_eq hload
      obtain ⟨columns, hfind, hdec⟩ := hload.decodes row rfl
      rw [StoreOp.forAssignee, hfind, all_some, decide_eq_true_eq] at hop
      have hto : row.assignee = member.agent := hdec.assignee.symm.trans hop
      refine ⟨_, hrep', LedgerStep.told (.reminder reminder member taskId row hrow) htold, ?_⟩
      rw [if_pos hto]
      exact hcount.remind htold reminder hrow
  · obtain ⟨plan, hplan, acts, ledger', hacts, hpath, hrep'⟩ := op.apply_reaches hrep
    have hreminder := hplan.not_reminder (fun order member taskId reminder heq => hremind ⟨_, _, _, _, heq⟩)
    obtain ⟨htold', hcount'⟩ := hpath.counted (fun hmem => hreminder (hacts.subset hmem)) htold hcount
    exact ⟨ledger', hrep', htold', hcount'⟩

theorem CountsAgree.run {db : Db} (h : CountsAgree db) (world : World) (ops : List StoreOp)
    (hops : remindsAssignees world ops db = true) : CountsAgree (AtmCore.run world ops db) := by
  induction ops generalizing db with
  | nil => exact h
  | cons op ops ih =>
    obtain ⟨hop, hrest⟩ := (Bool.and_eq_true _ _).mp hops
    exact ih (h.apply world op hop) hrest

/-- In every run whose bookkeeping writes are for the assignees of the moment, the counters of a task are the
numbers of its events since the last one that resets them. -/
theorem counters_summarise_log (world : World) (ops : List StoreOp) (db : Db)
    (hops : remindsAssignees world ops db.withoutTasks = true) (team : TeamName) (taskId : TaskId) (row : TaskColumns)
    (hrow : (run world ops db.withoutTasks).tasks.find? (team, taskId) = some row) :
    row.reminderCount = countSince .reminded [.assigned, .reassigned, .reopened, .remindersReset]
        (taskEventsOf (run world ops db.withoutTasks).taskEvents team taskId) ∧
      row.leadNotifiedCount = countSince .leadNotified [.assigned, .reassigned, .reopened, .started]
        (taskEventsOf (run world ops db.withoutTasks).taskEvents team taskId) := by
  have hstart : CountsAgree db.withoutTasks := ⟨.empty, represents_withoutTasks, .empty, nofun⟩
  obtain ⟨ledger, hrep, -, hcounted⟩ := hstart.run world ops hops
  have htask : ledger.task (team, taskId) = some row.core := by
    rw [← Holds.core hrep.pictured, hrow, map_some]
  have hcounts := hcounted _ _ htask
  rw [hrep.log] at hcounts
  exact Prod.mk.inj hcounts

/-- The member is reminded of the task that was assigned to them, and the lead is told. -/
def sampleReminders : List StoreOp :=
  [sampleWrite (sampleTaskMessage sampleLead sampleMember 1 none),
    .remind .natural ⟨sampleTeam, sampleMember⟩ sampleTask (.reminded ⟨1⟩ .emitted),
    .remind .natural ⟨sampleTeam, sampleMember⟩ sampleTask (.leadNotified ⟨2⟩ sampleLead (sampleId 7))]

theorem counters_summarise_sample : ∃ row,
    (run .accepting sampleReminders Db.empty.withoutTasks).tasks.find? (sampleTeam, sampleTask) = some row ∧
      row.reminderCount = 1 ∧
      row.reminderCount = countSince .reminded [.assigned, .reassigned, .reopened, .remindersReset]
        (taskEventsOf (run .accepting sampleReminders Db.empty.withoutTasks).taskEvents sampleTeam sampleTask) := by
  obtain ⟨row, hrow, hcount⟩ : ∃ row,
      (run .accepting sampleReminders Db.empty.withoutTasks).tasks.find? (sampleTeam, sampleTask) = some row ∧
        row.reminderCount = 1 := by decide +kernel
  exact ⟨row, hrow, hcount,
    (counters_summarise_log .accepting sampleReminders .empty (by decide +kernel) _ _ row hrow).1⟩

/-- The assignment is to the member, the reminder for the lead. -/
def sampleMisdirected : Db := run .accepting
  [sampleWrite (sampleTaskMessage sampleLead sampleMember 1 none),
    .remind .natural ⟨sampleTeam, sampleLead⟩ sampleTask (.reminded ⟨1⟩ .emitted)] Db.empty.withoutTasks

/-- A reminder for a member that the task is not assigned to is in the log and in no counter. -/
theorem misdirected_reminder :
    (sampleMisdirected.tasks.find? (sampleTeam, sampleTask)).map TaskColumns.reminderCount = some 0 ∧
      countSince .reminded [.assigned, .reassigned, .reopened, .remindersReset]
        (taskEventsOf sampleMisdirected.taskEvents sampleTeam sampleTask) = 1 := by
  decide +kernel

end AtmCore
