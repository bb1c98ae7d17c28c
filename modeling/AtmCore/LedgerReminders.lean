import AtmCore.LedgerOps

/-! The reminder bookkeeping as steps of the ledger. The counters are only touched when the write is made for
the current assignee, while the event is logged for any member. The returned event carries the state of
the task as it is read; the stored row has no outcome column, so only an open task's event is read back. -/

namespace AtmCore

open Rows Fallible List

variable {tasks : TaskTable} {ledger : Ledger} {order : RowOrder} {what : String} {member : MemberKey}
  {taskId : TaskId} {db : Db} {selects : TaskColumns → Bool} {set : TaskColumns → TaskColumns}

theorem updateTasks_congr {selects' : TaskColumns → Bool}
    (hset : ∀ row, (set row).key = row.key) (h : ∀ row ∈ tasks.rows, selects row = selects' row) :
    updateTasks order what tasks selects set hset = updateTasks order what tasks selects' set hset := by
  unfold updateTasks
  rw [filter_congr h]

theorem updateTasks_of_none (hset : ∀ row, (set row).key = row.key) (h : ∀ row ∈ tasks.rows, selects row = false) :
    updateTasks order what tasks selects set hset = .ok tasks := by
  have hnone : tasks.rows.filter selects = [] := filter_eq_nil_iff.mpr (fun row hrow => by simp [h row hrow])
  unfold updateTasks
  rw [hnone, map_nil]
  have hvisit : order.visit tasks [] = [] := (order.perm tasks []).eq_nil
  simp only [hvisit, Table.updateRows]

theorem ReminderWrite.change_fields (write : ReminderWrite) {row : TaskColumns} :
    (write.change row).key = row.key ∧ (write.change row).assignee = row.assignee ∧
      (write.change row).state = row.state ∧ (write.change row).closeOutcome = row.closeOutcome ∧
      (write.change row).position = row.position := by
  cases write <;> exact ⟨rfl, rfl, rfl, rfl, rfl⟩

theorem update_reminder (h : ledger.Pictured tasks) {row : TaskRow}
    (hload : Loads tasks (member.team, taskId) (some row)) {write : ReminderWrite} :
    ∃ tasks', updateTasks order what tasks
        (fun stored => decide (stored.key = (member.team, taskId)) && decide (stored.assignee = member.agent))
        write.change (fun _ => (write.change_fields).1) = .ok tasks' ∧
      (ledger.setTask (if row.assignee = member.agent then write.change row.core else row.core)).Pictured tasks' := by
  obtain ⟨columns, hfind, hdec⟩ := hload.decodes row rfl
  have hkey : columns.key = (member.team, taskId) := Table.key_of_find? hfind
  have hto : columns.assignee = row.assignee := hdec.assignee
  have hrow : ∀ stored ∈ tasks.rows, stored.key = (member.team, taskId) → stored = columns := by
    intro stored hst hskey
    exact tasks.eq_of_key_eq hst (Table.mem_of_find? hfind) (hskey.trans hkey.symm)
  by_cases hm : row.assignee = member.agent
  · have hsel : ∀ stored ∈ tasks.rows, (decide (stored.key = (member.team, taskId)) &&
        decide (stored.assignee = member.agent)) = decide (stored.key = (member.team, taskId)) := by
      intro stored hst
      by_cases hskey : stored.key = (member.team, taskId)
      · obtain rfl := hrow stored hst hskey
        simp [hto, hm]
      · simp [hskey]
    rw [if_pos hm, updateTasks_congr _ hsel]
    obtain ⟨hk, ha, hs, ho, hp⟩ := write.change_fields
    obtain ⟨tasks', hrun, hpict⟩ := update_in_place h hfind write.change
      (fun _ => (write.change_fields).1) ha (by rw [hs]) ho hp
    refine ⟨tasks', hrun, ?_⟩
    obtain ⟨p, rfl⟩ := hdec.exists_position
    cases write <;> exact hpict
  · rw [if_neg hm, updateTasks_of_none]
    · refine ⟨tasks, rfl, ?_⟩
      have htask : ledger.task row.core.key = some row.core := by
        have hcoreKey : row.core.key = (member.team, taskId) := by
          rw [hdec.core]
          exact hkey
        rw [hcoreKey]
        exact h.task_eq hload
      have hsame : Function.update ledger.task row.core.key (some row.core.core) = ledger.task := by
        rw [Function.update_eq_self_iff]
        exact htask.symm
      unfold Ledger.Pictured Ledger.setTask
      rw [hsame]
      exact h
    · intro stored hst
      by_cases hskey : stored.key = (member.team, taskId)
      · obtain rfl := hrow stored hst hskey
        simp [hto, hm]
      · simp [hskey]

/-- The event a bookkeeping write returns for the state it read. -/
def ReminderWrite.event (write : ReminderWrite) (member : MemberKey) (taskId : TaskId) (seq : Nat)
    (state : TaskState) : TaskEventRow :=
  let draft := write.draft member taskId state
  { team := draft.team
    taskId := draft.taskId
    assignee := draft.assignee
    seq := seq
    instant := draft.instant
    event := draft.event
    fromState := some state
    toState := some state
    actor := taskActor draft.actor
    messageId := draft.messageId
    outcome := draft.outcome
    marker := none
    detail := none }

/-- The stored row of a bookkeeping write on an open task decodes to the event that was returned. -/
theorem ReminderWrite.decode_of_open (write : ReminderWrite) {seq : Nat} {state : TaskState}
    (hopen : state.isOpen = true) : decodeEventRow ((write.draft member taskId state).columns seq) =
      .ok (write.event member taskId seq state) := by
  have hstate : taskEventState (some state.tag) none = .ok (some state) := by
    cases state with
    | assigned | active => rfl
    | complete outcome => cases hopen
  have hdec : decodeEventRow ((write.draft member taskId state).columns seq) = _ := decodeEventRow_eq_ok hstate hstate
  rw [hdec]
  cases write <;> rfl

/-- What a bookkeeping write does to the database it succeeds on. -/
def Reminds (write : ReminderWrite) (member : MemberKey) (taskId : TaskId) (db : Db) (ledger : Ledger)
    (event : TaskEventRow) (db' : Db) : Prop :=
  ∃ row, Loads db.tasks (member.team, taskId) (some row) ∧
    Represents db' ((ledger.setTask
      (if row.assignee = member.agent then write.change row.core else row.core)).append
        (write.draft member taskId row.state)) ∧
    event = write.event member taskId (nextEventSeq db.taskEvents member.team taskId) row.state ∧
    db'.taskEvents = db.taskEvents ++ [(write.draft member taskId row.state).columns
      (nextEventSeq db.taskEvents member.team taskId)]

theorem recordOnTask_spec {ledger : Ledger} (h : Represents db ledger) (order : RowOrder) (member : MemberKey)
    (taskId : TaskId) (missing what : String) (write : ReminderWrite)
    {append : TaskState → List TaskEventColumns → TaskEventRow × List TaskEventColumns}
    (happend : ∀ state events, append state events =
      (write.event member taskId (nextEventSeq events member.team taskId) state, events ++
        [(write.draft member taskId state).columns (nextEventSeq events member.team taskId)])) :
    Ensures Fault.sparesQueueIndex (fun result => Reminds write member taskId db ledger result.1 result.2)
      (recordOnTask order member taskId missing what write.change (fun _ => (write.change_fields).1) append db) := by
  refine (loadTaskRow_spec).bind (fun row hload => ?_)
  cases row with
  | none => exact ensures_fail_new
  | some row =>
    obtain ⟨tasks', hrun, hpict⟩ := update_reminder h.pictured hload
    dsimp only
    rw [hrun, Fallible.bind_ok, happend]
    exact ⟨row, hload, h.append hpict rfl (write.draft member taskId row.state), rfl, rfl⟩

theorem reloadAfter_spec (member : MemberKey) (taskId : TaskId) (vanished : String)
    (result : TaskEventRow × Db) : Ensures Fault.sparesQueueIndex (fun reloaded => reloaded.2 = result)
      (reloadAfter member taskId vanished result) := by
  refine (loadTaskRow_spec).bind (fun row _ => ?_)
  cases row with
  | none => exact ensures_fail_new
  | some row => exact rfl

/-- A bookkeeping write by the function of the source that makes it. -/
def ReminderWrite.run (write : ReminderWrite) (order : RowOrder) (member : MemberKey) (taskId : TaskId)
    (db : Db) : Outcome (TaskEventRow × Db) :=
  match write with
  | .reminded instant outcome => (recordReminder order member taskId instant outcome db).map Prod.snd
  | .reset instant => (resetReminders order member taskId instant db).map Prod.snd
  | .leadNotified instant lead messageId =>
    recordLeadNotified order member taskId instant lead messageId db

theorem ReminderWrite.run_eq (write : ReminderWrite) :
    Returns (fun result => WritesLedger db result.2) (write.run order member taskId db) := by
  have hrec : ∀ missing what set hset append, Returns (fun result => WritesLedger db result.2)
      (recordOnTask order member taskId missing what set hset append db) := by
    intro missing what set hset append
    refine .skip (fun row => ?_)
    split
    · trivial
    · exact .skip (fun tasks => ⟨tasks, _, rfl⟩)
  have hreload : ∀ {x : Outcome (TaskEventRow × Db)} (vanished : String),
      Returns (fun result => WritesLedger db result.2) x →
      Returns (fun result => WritesLedger db result.2) ((x >>= reloadAfter member taskId vanished).map Prod.snd) := by
    intro x vanished hx
    cases x with
    | error fault => trivial
    | ok result =>
      simp only [Fallible.bind_ok, reloadAfter]
      cases loadTaskRow result.2.tasks member.team taskId with
      | error fault => trivial
      | ok row => cases row <;> trivial
  cases write with
  | reminded | reset => exact hreload _ (hrec _ _ _ _ _)
  | leadNotified instant lead messageId =>
    rw [ReminderWrite.run, recordLeadNotified]
    exact hrec _ _ _ _ _

theorem ReminderWrite.run_spec (h : Represents db ledger) (write : ReminderWrite) (order : RowOrder)
    (member : MemberKey) (taskId : TaskId) :
    Ensures Fault.sparesQueueIndex (fun result => Reminds write member taskId db ledger result.1 result.2)
      (write.run order member taskId db) := by
  have hmap : ∀ {x : Outcome (TaskRow × TaskEventRow × Db)}, Ensures Fault.sparesQueueIndex
        (fun reloaded => Reminds write member taskId db ledger reloaded.2.1 reloaded.2.2) x →
      Ensures Fault.sparesQueueIndex
        (fun result => Reminds write member taskId db ledger result.1 result.2) (x.map Prod.snd) := by
    intro x hx
    cases x with
    | ok | error => exact hx
  cases write with
  | reminded instant outcome =>
    refine hmap ?_
    refine (recordOnTask_spec h order member taskId _ _ (.reminded instant outcome)
      (fun _ _ => rfl)).bind (fun result hres => ?_)
    refine (reloadAfter_spec member taskId _ result).mono (fun reloaded heq => ?_)
    rw [heq]
    exact hres
  | reset instant =>
    refine hmap ?_
    refine (recordOnTask_spec h order member taskId _ _ (.reset instant)
      (fun _ _ => rfl)).bind (fun result hres => ?_)
    refine (reloadAfter_spec member taskId _ result).mono (fun reloaded heq => ?_)
    rw [heq]
    exact hres
  | leadNotified instant lead messageId =>
    exact recordOnTask_spec h order member taskId _ _ (.leadNotified instant lead messageId) (fun _ _ => rfl)

end AtmCore
