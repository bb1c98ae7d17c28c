import AtmCore.LedgerTable
import AtmCore.TaskRowReads

/-! What each operation does to the table of tasks, as the picture of a ledger: a start and a move enter a
task into a queue, a close leaves one, and an assignment leaves one queue and enters another. Every
statement on the way goes through, in every row order. -/

namespace AtmCore

open Rows Fallible List

/-- The table is the picture of the ledger's tasks and queues. -/
def Ledger.Pictured (ledger : Ledger) (tasks : TaskTable) : Prop :=
  Holds (fun _ => False) tasks ledger.task ledger.queue

variable {key : TaskKey}

namespace Ledger.Pictured

variable {ledger : Ledger} {tasks : TaskTable}

variable (h : ledger.Pictured tasks)
include h

theorem queued (m : MemberKey) : Queued tasks m.team m.agent (ledger.queue m) :=
  Holds.queued h m id

theorem queueOrder_eq (m : MemberKey) :
    queueOrder tasks m.team m.agent = ledger.queue m :=
  Ranked.queueOrder_eq (h.queued m)

theorem stateOf_eq : ledger.stateOf key = (tasks.find? key).map TaskColumns.state := by
  rw [Ledger.stateOf, ← Holds.core h, Option.map_map]
  rfl

theorem task_eq {row : Option TaskRow}
    (hload : Loads tasks key row) : ledger.task key = row.map TaskRow.core := by
  rw [← Holds.core h, hload.core]

end Ledger.Pictured

variable {columns : TaskColumns} {row : TaskRow} {ids : List TaskId} {taskId : TaskId} {index : Nat}
  {ledger : Ledger} {tasks : TaskTable}

theorem Decodes.isOpen (h : Decodes columns row) : columns.isOpen = row.state.isOpen := by
  have hstate : columns.state = row.state.tag := (congrArg TaskColumns.state h.core).symm
  unfold TaskColumns.isOpen
  rw [hstate]
  cases row.state <;> rfl

theorem Decodes.exists_position (h : Decodes columns row) : ∃ p, columns = { row.core with position := p } := by
  refine ⟨columns.position, ?_⟩
  rw [h.core]
  rfl

theorem Decodes.assignee (h : Decodes columns row) : columns.assignee = row.assignee :=
  (congrArg TaskColumns.assignee h.core).symm

/-- The queue with the task at an index has the same tasks, and the task. -/
theorem mem_insertIdx_filter (hidx : index ≤ (ids.filter (· ≠ taskId)).length) (id : TaskId) :
    id ∈ (ids.filter (· ≠ taskId)).insertIdx index taskId ↔ id = taskId ∨ id ∈ ids := by
  rw [mem_insertIdx hidx, mem_filter]
  by_cases h : id = taskId <;> simp [h]

theorem nodup_insertIdx_filter (hnd : ids.Nodup) (hidx : index ≤ (ids.filter (· ≠ taskId)).length) :
    ((ids.filter (· ≠ taskId)).insertIdx index taskId).Nodup := by
  rw [(perm_insertIdx taskId _ hidx).nodup_iff, nodup_cons]
  exact ⟨by simp, hnd.filter _⟩

theorem insertAt_spec {E : Fault → Prop} (hpanic : E .panic) (ids : List TaskId) (index : Nat)
    (taskId : TaskId) : Ensures E (fun ids' => ids' = ids.insertIdx index taskId ∧ index ≤ ids.length)
      (insertAt ids index taskId) := by
  unfold insertAt
  split
  · next h => exact ⟨rfl, h⟩
  · exact hpanic

variable {order : RowOrder}

/-- Reordering a member's queue around one of its tasks. -/
theorem renumber_enter (h : ledger.Pictured tasks) {m : MemberKey}
    (hmem : taskId ∈ ledger.queue m) (hidx : index ≤ (ledger.others m taskId).length) :
    ∃ tasks', renumberQueue order m.team m.agent ((ledger.others m taskId).insertIdx index taskId) tasks =
        .ok tasks' ∧ (ledger.enter m taskId index).Pictured tasks' := by
  have hq := h.queued m
  have hnd := Ranked.nodup hq
  have hshort : (ledger.queue m).length < 2 ^ 32 := Holds.short h m id
  have hids := (Ranked.lists hq).of_mem_iff (nodup_insertIdx_filter hnd hidx)
    (fun id => by
      rw [mem_insertIdx_filter hidx]
      exact or_iff_right_of_imp (fun hid => hid ▸ hmem))
  have hlen := (length_insertIdx_of_le_length hidx taskId).trans (length_filter_ne hnd hmem)
  obtain ⟨tasks', hrun, hholds, -⟩ := Holds.renumber h order m hids (hlen.trans_lt hshort)
    (hq.below.mono (by omega))
  exact ⟨tasks', hrun, hholds.mono (fun _ hl => hl.1)⟩

variable {team : TeamName}

/-- A write to a task that leaves it where it stands. -/
theorem update_in_place (h : ledger.Pictured tasks) {what : String}
    (hfind : tasks.find? (team, taskId) = some columns) (set : TaskColumns → TaskColumns)
    (hset : ∀ row, (set row).key = row.key) (hto : (set columns).assignee = columns.assignee)
    (hstate : (set columns).state = .complete ↔ columns.state = .complete)
    (hout : (set columns).closeOutcome = columns.closeOutcome) (hpos : (set columns).position = columns.position) :
    ∃ tasks', updateTasks order what tasks (fun row => decide (row.key = (team, taskId))) set hset =
        .ok tasks' ∧ (ledger.setTask (set columns)).Pictured tasks' := by
  have hsound := Holds.sound h
  have hwf := TaskColumns.wellFormed_iff.mp
    (taskGuard_check_eq_none_iff.mp (hsound.check columns (Table.mem_of_find? hfind)))
  have hopen : (set columns).isOpen = columns.isOpen := by
    simp only [TaskColumns.isOpen, ne_eq, hstate]
  have hkey : (set columns).key = (team, taskId) := (hset columns).trans (Table.key_of_find? hfind)
  obtain ⟨tasks', hrun, hsound', hwr⟩ := updateTask_writes hfind set hset hsound
    (TaskColumns.wellFormed_iff.mpr (by rw [hpos, hout, hstate]; exact hwf))
    (fun p hp id' s hs hne => by
      rw [hto] at hs
      rw [hpos] at hp
      by_cases hc : columns.isOpen = true
      · exact position_free hsound ⟨hfind, rfl, hc⟩ hs hne hp
      · have hcomplete : columns.state = .complete := by simpa [TaskColumns.isOpen] using hc
        rw [hwf.2.2.mp hcomplete] at hp
        exact absurd hp (by simp))
  refine ⟨tasks', hrun, ?_⟩
  have hholds := Holds.writes_in_place h hwr hsound' hkey hfind hto hopen hpos
  rwa [← hkey] at hholds

theorem mem_queue_of_open (h : ledger.Pictured tasks)
    (hfind : tasks.find? (team, taskId) = some columns) (hdec : Decodes columns row)
    (hopen : row.state.isOpen = true) : taskId ∈ ledger.queue ⟨team, row.assignee⟩ :=
  (Ranked.mem_of_open (h.queued ⟨team, row.assignee⟩) ⟨hfind, hdec.assignee, hdec.isOpen.trans hopen⟩).1

variable {record : Message}

variable (h : ledger.Pictured tasks) (hfind : tasks.find? (record.team, taskId) = some columns)
  (hdec : Decodes columns row)
include h hfind hdec

/-- A start writes the state and puts the task behind the tasks that are active already. -/
theorem startQueue_spec (order : RowOrder) (hstate : row.state = .assigned) (active : Nat) :
    Ensures Fault.sparesQueueIndex
      (fun tasks' => ((ledger.setTask { row.core with
        state := .active
        leadNotifiedCount := 0
        updatedAt := record.envelope.timestamp }).enter ⟨record.team, row.assignee⟩ taskId active).Pictured tasks')
      (startQueue order record taskId row .active active tasks) := by
  have hmem := mem_queue_of_open h hfind hdec (by rw [hstate]; rfl)
  obtain ⟨p, rfl⟩ := hdec.exists_position
  obtain ⟨tasks₁, hrun, hpict⟩ := update_in_place h hfind (fun stored => { stored with
      state := TaskState.active.tag
      leadNotifiedCount := 0
      updatedAt := record.envelope.timestamp })
    (fun _ => rfl) rfl (by simp [TaskRow.core, hstate, TaskState.tag]) rfl rfl
  have horder : queueOrder tasks record.team row.assignee = ledger.queue ⟨record.team, row.assignee⟩ :=
    h.queueOrder_eq ⟨record.team, row.assignee⟩
  unfold startQueue
  rw [horder]
  refine (insertAt_spec trivial _ _ _).bind (fun ids hids => ?_)
  obtain ⟨rfl, hidx⟩ := hids
  rw [hrun, Fallible.bind_ok]
  obtain ⟨tasks₂, hrun₂, hpictured₂⟩ := renumber_enter hpict hmem hidx
  have hrun₂' : renumberQueue order record.team row.assignee (((ledger.queue ⟨record.team, row.assignee⟩).filter
      (· ≠ taskId)).insertIdx active taskId) tasks₁ = .ok tasks₂ := hrun₂
  rw [hrun₂']
  exact hpictured₂

/-- A close takes the task out of its queue, which closes up. -/
theorem closeQueue_spec {outcome : TaskCloseOutcome} :
    ∃ tasks', closeQueue order record taskId outcome row (.complete outcome) tasks = .ok tasks' ∧
      ((ledger.setTask { row.core with
        state := .complete
        closeOutcome := some outcome
        updatedAt := record.envelope.timestamp }).leave ⟨record.team, row.assignee⟩ taskId).Pictured tasks' := by
  have hkey : columns.key = (record.team, taskId) := Table.key_of_find? hfind
  obtain ⟨p, rfl⟩ := hdec.exists_position
  set m : MemberKey := ⟨record.team, row.assignee⟩ with hm
  set closed : TaskColumns := { row.core with
    state := .complete
    closeOutcome := some outcome
    updatedAt := record.envelope.timestamp } with hcl
  obtain ⟨tasks₁, hrun, hs, hwr⟩ := updateTask_writes hfind (fun stored => { stored with
      state := (TaskState.complete outcome).tag
      closeOutcome := some outcome
      position := none
      updatedAt := record.envelope.timestamp })
    (fun _ => rfl) (Holds.sound h) (by simp [TaskColumns.wellFormed, TaskState.tag]) (by simp)
  have hwr' : Writes tasks tasks₁ closed := hwr
  have hq := h.queued m
  have hout : ¬ (closed.assignee = m.agent ∧ closed.isOpen = true) := by simp [hcl, TaskColumns.isOpen]
  have hranked := Ranked.writes_out hq hwr' hkey hout
  have horder : queueOrder tasks₁ record.team row.assignee = ledger.others m taskId := Ranked.queueOrder_eq hranked
  have hshort : (ledger.queue m).length < 2 ^ 32 := Holds.short h m id
  have hlen : (ledger.others m taskId).length ≤ (ledger.queue m).length := length_filter_le _ _
  obtain ⟨tasks₂, hrun₂, hholds, -⟩ := (Holds.writes h hwr' hs hkey).renumber order m
    (Ranked.lists hranked) (hlen.trans_lt hshort)
    ((hq.below.writes hwr' (by simp [hcl, TaskRow.core])).mono (by omega))
  refine ⟨tasks₂, ?_, ?_⟩
  · unfold closeQueue
    rw [hrun, Fallible.bind_ok, horder]
    exact hrun₂
  · have hclosedKey : closed.key = (record.team, taskId) := hkey
    rw [← hclosedKey] at hholds
    refine hholds.mono ?_
    rintro m' ⟨hfalse | hentered | ⟨old, hold, -, hleft⟩, hne⟩
    · exact hfalse
    · exact hne hentered
    · rw [hclosedKey, hfind] at hold
      cases hold
      exact hne hleft

end AtmCore
