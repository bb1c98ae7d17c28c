import AtmCore.LedgerOps

/-! A queue move as a step of the ledger. A move of an assigned task enters it again at the index of its
placement; a move of an active task is logged and changes nothing. -/

namespace AtmCore

open Fallible

variable {position : QueuePosition}

theorem QueuePosition.get_of_new? {value : Nat}
    (h : QueuePosition.new? value = some position) : position.get = value := by
  unfold QueuePosition.new? at h
  split at h
  · cases h
    rfl
  · contradiction

variable {taskId : TaskId} {ledger : Ledger} {ids : List TaskId}

theorem place_of_findIdx? {index : Nat} (h : ids.findIdx? (· = taskId) = some index) :
    place ids taskId = index + 1 := by
  obtain ⟨hlt, -, -⟩ := List.findIdx?_eq_some_iff_getElem.mp h
  rw [List.findIdx?_eq_some_iff_findIdx_eq] at h
  have hfun : (fun id => decide (id = taskId)) = (· == taskId) := by
    funext id
    simp [BEq.beq]
  rw [place, List.idxOf, ← hfun, h.2]

theorem queuePositionOf_spec : Ensures Fault.sparesQueueIndex (fun position => position.get = place ids taskId ∧
        ∃ index, ids.findIdx? (· = taskId) = some index ∧ position.get = index + 1)
      (queuePositionOf ids taskId) := by
  unfold queuePositionOf
  split
  · next position hpos =>
    obtain ⟨index, hidx, hnew⟩ := Option.bind_eq_some_iff.mp hpos
    have hget := QueuePosition.get_of_new? hnew
    exact ⟨hget.trans (place_of_findIdx? hidx).symm, index, hidx, hget⟩
  · exact ensures_fail_new

variable {team : TeamName} {row : TaskRow}

/-- The position of a loaded open row is the task's place in the queue. -/
theorem position_get_eq_place {tasks : TaskTable} (h : ledger.Pictured tasks)
    (hload : Loads tasks (team, taskId) (some row)) (hopen : row.state.isOpen = true)
    (hpos : row.position = some position) : position.get = place (ledger.queue ⟨team, row.assignee⟩) taskId := by
  obtain ⟨columns, hfind, hdec⟩ := hload.decodes row rfl
  obtain ⟨-, hplace⟩ := Ranked.mem_of_open (h.queued ⟨team, row.assignee⟩)
    ⟨hfind, hdec.assignee, hdec.isOpen.trans hopen⟩
  rw [hdec.position, hplace] at hpos
  exact QueuePosition.get_of_new? hpos

variable {db : Db}

theorem applyQueuedTaskMove_spec (h : Represents db ledger) (ambient : Ambient)
    (actor : AgentName) (target : MoveTarget) (instant : IsoTimestamp)
    (hload : Loads db.tasks (team, taskId) (some row)) (hstate : row.state = .assigned) : Ensures Fault.sparesQueueIndex
      (fun result => Advances [.move team taskId actor] db ledger result.2 [result.1.event])
      (applyQueuedTaskMove ambient team taskId actor target instant row row.state db) := by
  have hopen : row.state.isOpen = true := by rw [hstate]; rfl
  obtain ⟨columns, hfind, hdec⟩ := hload.decodes row rfl
  set m : MemberKey := ⟨team, row.assignee⟩ with hm
  have hmem : taskId ∈ ledger.queue m := mem_queue_of_open h.pictured hfind hdec hopen
  have horder : queueOrder db.tasks team row.assignee = ledger.queue m := h.pictured.queueOrder_eq m
  unfold applyQueuedTaskMove
  cases hpos : row.position with
  | none => exact ensures_fail_new
  | some fromPosition =>
    rw [horder]
    refine (insertAtPlacement_spec (Holds.core h.pictured) (h.pictured.queued m)).bind ?_
    rintro ids ⟨index, hpl, hidx, rfl⟩
    obtain ⟨tasks, hrun, hpict⟩ := renumber_enter h.pictured hmem hidx
    have hrun' : renumberQueue ambient.rowOrder team row.assignee
        ((ledger.others m taskId).insertIdx index taskId) db.tasks = .ok tasks := hrun
    rw [hrun', Fallible.bind_ok]
    refine (queuePositionOf_spec).bind ?_
    rintro toPosition ⟨-, found, hf, hto⟩
    rw [findIdx?_insertIdx hidx (by simp [Ledger.others])] at hf
    cases hf
    refine (appendTaskEvent_spec _ db.taskEvents).bind ?_
    rintro ⟨event, events⟩ ⟨hevs, hrep⟩
    exact Advances.of_append h hpict rfl
      (LedgerStep.moved team taskId actor target instant row fromPosition toPosition index
        (h.pictured.task_eq hload) hstate hpl
        (position_get_eq_place h.pictured hload hopen hpos) hto) hevs hrep

theorem applyTaskMove_spec (h : Represents db ledger) {ambient : Ambient}
    {actor : AgentName} {target : MoveTarget} {instant : IsoTimestamp} : Ensures Fault.sparesQueueIndex
      (fun result => Advances [.move team taskId actor] db ledger result.2 [result.1.event])
      (applyTaskMove ambient team taskId actor target instant db) := by
  refine (loadTaskRow_spec).bind (fun row hload => ?_)
  cases row with
  | none => exact ensures_fail_new
  | some row =>
    dsimp only
    cases hstate : row.state with
    | complete outcome => exact ensures_fail_new
    | assigned =>
      have hspec := applyQueuedTaskMove_spec h ambient actor target instant hload hstate
      rw [hstate] at hspec
      exact hspec
    | active =>
      have htra : transition (some TaskState.active) .assigned taskId actor (some row.assignee)
          row.assignee = .ok .active := by
        simp [transition]
      have horder : queueOrder db.tasks team row.assignee = ledger.queue ⟨team, row.assignee⟩ :=
        h.pictured.queueOrder_eq ⟨team, row.assignee⟩
      simp only [TaskState.isOpen, Bool.not_true, Bool.false_eq_true, if_false, htra,
        Fallible.bind_ok, if_true, horder]
      refine (queuePositionOf_spec).bind ?_
      rintro position ⟨hpos, -⟩
      refine (appendTaskEvent_spec _ db.taskEvents).bind ?_
      rintro ⟨event, events⟩ ⟨hevs, hrep⟩
      have hstep := LedgerStep.kept team taskId actor instant row position (h.pictured.task_eq hload) hstate
        hpos
      rw [hstate] at hstep
      exact Advances.of_append h h.pictured rfl hstep hevs hrep

end AtmCore
