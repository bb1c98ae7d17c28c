import AtmCore.LedgerQueues

/-! The table part of an assignment: the open row leaves the queue of its assignee, parked above it while
the queue closes up; the row goes to a slot above the queue of the addressee; and both queues are numbered
again. A fresh task and a reopened one skip the first part. -/

namespace AtmCore

open Rows Fallible List Option Ranked

variable {tasks : TaskTable} {row : Option TaskRow} {taskId : TaskId} {order : RowOrder} {m : MemberKey}
  {slot : TaskId → Nat} {placement : MoveTarget}

section

variable {ledger : Ledger} (hcore : ∀ k, (tasks.find? k).map TaskColumns.core = ledger.task k)
  (hranked : Ranked tasks m.team m.agent (ledger.queue m) slot)
include hcore hranked

theorem placementIndex_spec : Ensures Fault.sparesQueueIndex (ledger.PlacedAt m taskId placement)
      (placementIndex tasks (ledger.others m taskId) taskId placement m.team m.agent) := by
  have hstateOf : ∀ k, ledger.stateOf k = (tasks.find? k).map TaskColumns.state := by
    intro k
    rw [Ledger.stateOf, ← hcore, Option.map_map]
    rfl
  cases placement with
  | «end» => exact rfl
  | head =>
    show _ = _
    have hstates := hranked.queueStates_eq taskId
    have hlen : ∀ (tags : List TaskStateTag), (tags.takeWhile (· = .active)).length =
        ((tags.map some).takeWhile (fun tag => decide (tag = some .active))).length := by
      intro tags
      rw [takeWhile_map, length_map]
      congr 2
      funext tag
      simp
    rw [hlen, hstates, takeWhile_map, length_map]
    congr 2
    funext id
    simp [hstateOf]
  | before other =>
    refine (loadTaskRow_spec).bind (fun row hload => ?_)
    split
    · next hrow =>
      split
      · next index hidx =>
        refine ⟨?_, hidx⟩
        cases row with
        | none => simp at hrow
        | some r =>
          have hstate : r.state = .assigned := by
            simp only [any_some, Bool.and_eq_true, decide_eq_true_eq] at hrow
            exact hrow.2
          rw [Ledger.stateOf, ← hcore, hload.core]
          simp [TaskRow.core, hstate, TaskState.tag]
      · exact ensures_fail_new
    · exact ensures_fail_new

theorem insertAtPlacement_spec : Ensures Fault.sparesQueueIndex
      (fun ids => ∃ index, ledger.PlacedAt m taskId placement index ∧
        index ≤ (ledger.others m taskId).length ∧ ids = (ledger.others m taskId).insertIdx index taskId)
      (insertAtPlacement tasks (ledger.others m taskId) taskId placement m.team m.agent) := by
  refine (placementIndex_spec hcore hranked).bind (fun index hpl => ?_)
  refine (insertAt_spec trivial _ index taskId).mono (fun ids hids => ?_)
  exact ⟨index, hpl, hids.2, hids.1⟩

end

/-- The row an assignment writes, in the slot above the queue it enters. -/
def temporaryColumns (record : Message) (taskId : TaskId) (messageId : AtmMessageId) (temporary : Nat) :
    TaskColumns :=
  { assignedColumns record taskId messageId with position := some temporary }

theorem applyTaskAssignmentRow_writes (order : RowOrder) {record : Message} (messageId : AtmMessageId)
    (temporary : Nat) (hsound : tasks.Sound taskGuard)
    (hcore : (tasks.find? (record.team, taskId)).map TaskColumns.core = row.map TaskRow.core) (hpos : 1 ≤ temporary)
    (hfree : ∀ id s, OpenFor tasks record.team record.agent id s → id ≠ taskId → s.position ≠ some temporary) :
    ∃ tasks', applyTaskAssignmentRow order record taskId row temporary messageId .assigned tasks =
        .ok tasks' ∧ tasks'.Sound taskGuard ∧
      Writes tasks tasks' (temporaryColumns record taskId messageId temporary) := by
  have hcheck : (temporaryColumns record taskId messageId temporary).wellFormed = true := by
    simp [TaskColumns.wellFormed, temporaryColumns, assignedColumns, hpos]
  cases row with
  | none =>
    have hnone : tasks.find? (record.team, taskId) = none := by simpa using hcore
    have hfr : tasks.find? (temporaryColumns record taskId messageId temporary).key = none := hnone
    obtain ⟨tasks', hrun, hsound', hwr⟩ := insertTask_writes "failed to insert task assignment" hfr
      hsound hcheck (fun p hp id s hs => by
        cases hp
        refine hfree id s hs (fun hid => ?_)
        have hsome : tasks.find? (record.team, id) = some s := hs.1
        rw [hid, hnone] at hsome
        exact some_ne_none _ hsome.symm)
    exact ⟨tasks', hrun, hsound', hwr⟩
  | some old =>
    obtain ⟨columns, hfind, -⟩ := map_eq_some_iff.mp hcore
    have hkey : columns.key = (record.team, taskId) := Table.key_of_find? hfind
    obtain ⟨hteam, hid⟩ := Prod.mk.inj hkey
    have hset : { columns with
        assignee := record.agent
        assigner := record.envelope.from
        state := TaskState.assigned.tag
        closeOutcome := none
        position := some temporary
        assignmentMessageId := messageId
        description := record.envelope.text
        assignedAt := record.envelope.timestamp
        updatedAt := record.envelope.timestamp
        lastRemindedAt := none
        reminderCount := 0
        leadNotifiedCount := 0 } = temporaryColumns record taskId messageId temporary := by
      simp only [hteam, hid]
      rfl
    rw [← hset]
    refine updateTask_writes hfind _ _ hsound (by rw [hset]; exact hcheck) (fun p hp id' s hs hne => ?_)
    cases hp
    exact hfree id' s hs hne

variable {old : TaskRow}

theorem openRow_eq_some_iff : openRow row = some old ↔ row = some old ∧ old.state.isOpen = true := by
  unfold openRow
  rw [filter_eq_some_iff]

theorem openRow_of_core {columns : TaskColumns} (hcore : some columns.core = row.map TaskRow.core)
    (hopen : columns.isOpen = true) : ∃ old, openRow row = some old ∧ columns.assignee = old.assignee := by
  obtain ⟨old, rfl, hold⟩ := map_eq_some_iff.mp hcore.symm
  refine ⟨old, openRow_eq_some_iff.mpr ⟨rfl, ?_⟩, (congrArg TaskColumns.assignee hold).symm⟩
  have hstate : old.state.tag = columns.state := congrArg TaskColumns.state hold
  rw [TaskState.isOpen_eq_true_iff, hstate]
  exact of_decide_eq_true hopen

variable {tasks' : TaskTable} {written : TaskColumns}

section Assignment

variable {ledger : Ledger} {tasks : TaskTable} {record : Message} {taskId : TaskId} {row : Option TaskRow}

/-- The table between the release and the write: the former assignee is loose, its other tasks closed up. -/
structure Released (ledger : Ledger) (record : Message) (taskId : TaskId) (row : Option TaskRow)
    (tasks : TaskTable) : Prop where
  holds : Holds (fun m => ∃ old, openRow row = some old ∧ m = ⟨record.team, old.assignee⟩) tasks
    ledger.task ledger.queue
  rest : ∀ old, openRow row = some old → ∀ id s, OpenFor tasks record.team old.assignee id s →
    id ∈ ledger.queue ⟨record.team, old.assignee⟩ ∧
      (id ≠ taskId → s.position = some (place (ledger.others ⟨record.team, old.assignee⟩ taskId) id))
  stays : ∀ old, openRow row = some old → ∀ id ∈ ledger.queue ⟨record.team, old.assignee⟩,
    ∃ s, OpenFor tasks record.team old.assignee id s

theorem releasePreviousAssignment_spec (h : ledger.Pictured tasks) (hload : Loads tasks (record.team, taskId) row) :
    ∃ tasks', releasePreviousAssignment order record taskId row tasks = .ok tasks' ∧
      Released ledger record taskId row tasks' := by
  unfold releasePreviousAssignment
  cases hold : openRow row with
  | none => exact ⟨tasks, rfl, ⟨Holds.mono h (fun _ => False.elim), by simp [hold], by simp [hold]⟩⟩
  | some old =>
    obtain ⟨hrow, hopen⟩ := openRow_eq_some_iff.mp hold
    obtain ⟨columns, hfind, hdec⟩ := hload.decodes old hrow
    set m : MemberKey := ⟨record.team, old.assignee⟩ with hm
    have hmem : taskId ∈ ledger.queue m := mem_queue_of_open h hfind hdec hopen
    have horder : queueOrder tasks record.team old.assignee = ledger.queue m := h.queueOrder_eq m
    obtain ⟨tasks', hrun, hholds, -, hrest, hstays⟩ := Holds.release h order
      "failed to release old task position" (m := m) id hmem rfl
    refine ⟨tasks', ?_, ⟨hholds.mono ?_, ?_, ?_⟩⟩
    · dsimp only
      rw [horder]
      exact hrun
    · rintro m' (hfalse | rfl)
      · exact hfalse.elim
      · exact ⟨old, hold, rfl⟩
    · intro old' hold' id s hs
      obtain rfl := some.inj (hold.symm.trans hold')
      exact hrest id s hs
    · intro old' hold' id hid
      obtain rfl := some.inj (hold.symm.trans hold')
      exact hstays id hid

section

variable (hwr : Writes tasks tasks' written) (hkey : written.key = (record.team, taskId))
  (hto : written.assignee = record.agent)
include hwr hkey hto

/-- Once the task is written to its new assignee, the former one's queue is what is left of it. -/
theorem Released.queued_rest (h : Released ledger record taskId row tasks) (hold : openRow row = some old)
    (hother : old.assignee ≠ record.agent) (hnd : (ledger.queue ⟨record.team, old.assignee⟩).Nodup) :
    Queued tasks' record.team old.assignee (ledger.others ⟨record.team, old.assignee⟩ taskId) := by
  have hopen : ∀ id s, OpenFor tasks' record.team old.assignee id s ↔
      id ≠ taskId ∧ OpenFor tasks record.team old.assignee id s := by
    intro id s
    rw [openFor_of_writes hwr, hkey]
    by_cases hid : id = taskId
    · subst hid
      simp [hto, hother.symm]
    · simp [hid]
  refine ⟨fun {id s} hs => ?_, fun {id} hid => ?_, place_rising (hnd.filter _)⟩
  · obtain ⟨hne, hs'⟩ := (hopen id s).mp hs
    obtain ⟨hmem, hpos⟩ := h.rest old hold id s hs'
    exact ⟨mem_filter.mpr ⟨hmem, decide_eq_true hne⟩, hpos hne⟩
  · obtain ⟨hmem, hne⟩ := mem_filter.mp hid
    obtain ⟨s, hs⟩ := h.stays old hold id hmem
    exact ⟨s, (hopen id s).mpr ⟨of_decide_eq_true hne, hs⟩⟩

/-- The former assignee's queue is numbered as it already stands. -/
theorem renumberPreviousAssignment_spec {before : TaskTable} (h : ledger.Pictured before)
    {task : TaskKey → Option TaskColumns} (hrel : Released ledger record taskId row tasks)
    (hother : ∀ old, openRow row = some old → old.assignee ≠ record.agent)
    (hholds : Holds (fun m => m = ⟨record.team, record.agent⟩ ∨ ∃ old, openRow row = some old ∧
      m = ⟨record.team, old.assignee⟩) tasks' task ledger.queue) :
    ∃ tasks'', renumberPreviousAssignment order record row tasks' = .ok tasks'' ∧
      Holds (fun m => m = ⟨record.team, record.agent⟩) tasks'' task (ledger.release record taskId row).queue ∧
      ∀ id s, OpenFor tasks'' record.team record.agent id s ↔ OpenFor tasks' record.team record.agent id s := by
  unfold renumberPreviousAssignment Ledger.release
  cases hold : openRow row with
  | none =>
    refine ⟨tasks', rfl, hholds.mono ?_, fun _ _ => Iff.rfl⟩
    rintro m (hm | ⟨old, hsome, -⟩)
    · exact hm
    · rw [hold] at hsome
      exact absurd hsome.symm (some_ne_none old)
  | some old =>
    set m : MemberKey := ⟨record.team, old.assignee⟩ with hm
    have hne : (⟨record.team, record.agent⟩ : MemberKey) ≠ m := by
      intro heq
      exact hother old hold (congrArg MemberKey.agent heq).symm
    have hq : Queued tasks' record.team old.assignee (ledger.others m taskId) :=
      hrel.queued_rest hwr hkey hto hold (hother old hold) (Ranked.nodup (h.queued m))
    have horder : queueOrder tasks' record.team old.assignee = ledger.others m taskId := queueOrder_eq hq
    have hlen : (ledger.others m taskId).length ≤ (ledger.queue m).length := length_filter_le _ _
    have hshort : (ledger.queue m).length < 2 ^ 32 := Holds.short h m id
    obtain ⟨tasks'', hrun, hholds'', hframe⟩ := hholds.renumber order m (Ranked.lists hq)
      (hlen.trans_lt hshort) (hq.below.mono (by omega))
    refine ⟨tasks'', ?_, hholds''.mono ?_, hframe _ hne⟩
    · dsimp only
      rw [horder]
      exact hrun
    · rintro m' ⟨hm' | ⟨old', hold', hm'⟩, hne'⟩
      · exact hm'
      · obtain rfl := some.inj (hold.symm.trans hold')
        exact absurd hm' hne'

end

theorem release_queue_agent (hother : ∀ old, openRow row = some old → old.assignee ≠ record.agent) :
    (ledger.release record taskId row).queue ⟨record.team, record.agent⟩ =
      ledger.queue ⟨record.team, record.agent⟩ := by
  unfold Ledger.release
  cases hold : openRow row with
  | none => rfl
  | some old =>
    refine Function.update_of_ne (fun heq => ?_) _ _
    exact hother old hold (congrArg MemberKey.agent heq).symm

theorem assignQueues_spec (h : ledger.Pictured tasks) {placement : Option MoveTarget} {messageId : AtmMessageId}
    (hload : Loads tasks (record.team, taskId) row)
    (hother : ∀ old, openRow row = some old → old.assignee ≠ record.agent) : Ensures Fault.sparesQueueIndex
      (fun result => ∃ index, ledger.PlacedAt ⟨record.team, record.agent⟩ taskId (placement.getD .end) index ∧
        index ≤ (ledger.others ⟨record.team, record.agent⟩ taskId).length ∧
        result.1 = (ledger.others ⟨record.team, record.agent⟩ taskId).insertIdx index taskId ∧
        (((ledger.release record taskId row).setTask (assignedColumns record taskId messageId)).enter
          ⟨record.team, record.agent⟩ taskId index).Pictured result.2)
      (assignQueues order record taskId placement row messageId .assigned tasks) := by
  set m : MemberKey := ⟨record.team, record.agent⟩ with hm
  obtain ⟨tasks₁, hrun₁, hrel⟩ := releasePreviousAssignment_spec h hload
  have hq : Queued tasks₁ m.team m.agent (ledger.queue m) := by
    refine hrel.holds.queued m ?_
    rintro ⟨old, hold, hmember⟩
    exact hother old hold (congrArg MemberKey.agent hmember).symm
  have horder : queueOrder tasks₁ record.team record.agent = ledger.queue m := queueOrder_eq hq
  unfold assignQueues
  rw [hrun₁, Fallible.bind_ok, horder]
  refine (insertAtPlacement_spec hrel.holds.core hq).bind ?_
  rintro ids ⟨index, hpl, hidx, rfl⟩
  have hcore : (tasks₁.find? (record.team, taskId)).map TaskColumns.core = row.map TaskRow.core := by
    rw [hrel.holds.core, h.task_eq hload]
  have hnotin : taskId ∉ ledger.queue m := by
    intro hmem
    obtain ⟨s, hs⟩ := open_of_mem hq hmem
    have hs₁ : tasks₁.find? (record.team, taskId) = some s := hs.1
    rw [hs₁] at hcore
    obtain ⟨old, hold, hto⟩ := openRow_of_core hcore hs.2.2
    exact hother old hold (hto.symm.trans hs.2.1)
  have hoth : ledger.others m taskId = ledger.queue m :=
    filter_eq_self.mpr (fun id hid => decide_eq_true (fun heq => hnotin (heq ▸ hid)))
  have hlen : ((ledger.others m taskId).insertIdx index taskId).length = (ledger.queue m).length + 1 := by
    rw [length_insertIdx_of_le_length hidx, hoth]
  by_cases hlarge : 2 ^ 32 ≤ ((ledger.others m taskId).insertIdx index taskId).length
  · rw [if_pos hlarge]
    exact ensures_fail_new
  rw [if_neg hlarge]
  set ids := (ledger.others m taskId).insertIdx index taskId with hids
  obtain ⟨tasks₂, hrun₂, hsound₂, hwr⟩ := applyTaskAssignmentRow_writes order messageId ids.length
    hrel.holds.sound hcore (by omega)
    (fun id s hs _ hp => by
      have := hq.below id s _ hs hp
      omega)
  rw [hrun₂, Fallible.bind_ok]
  have hkey : (temporaryColumns record taskId messageId ids.length).key = (record.team, taskId) := rfl
  have hholds₂ : Holds (fun m' => m' = m ∨ ∃ old, openRow row = some old ∧ m' = ⟨record.team, old.assignee⟩)
      tasks₂ (Function.update ledger.task (record.team, taskId)
        (some (temporaryColumns record taskId messageId ids.length).core)) ledger.queue := by
    refine (hrel.holds.writes hwr hsound₂ hkey).mono ?_
    rintro m' (hold | hentered | ⟨columns, hfind, hopen, hleft⟩)
    · exact .inr hold
    · exact .inl hentered
    · rw [hfind] at hcore
      obtain ⟨old, hold, hto⟩ := openRow_of_core hcore hopen
      exact .inr ⟨old, hold, hto ▸ hleft⟩
  obtain ⟨tasks₃, hrun₃, hholds₃, hframe⟩ := renumberPreviousAssignment_spec hwr hkey rfl h hrel hother hholds₂
  rw [hrun₃, Fallible.bind_ok]
  have hlists : Lists tasks₃ m.team m.agent ids := ((Ranked.lists hq).writes_in hwr hkey rfl rfl
      (nodup_insertIdx_filter (Ranked.nodup hq) hidx) (mem_insertIdx_filter hidx)).congr hframe
  have hbelow : Below tasks₃ m.team m.agent (2 ^ 34) := by
    refine Below.congr (Below.writes (hq.below.mono (by omega)) hwr (fun p hp => ?_)) hframe
    cases hp
    omega
  obtain ⟨tasks₄, hrun₄, hholds₄, -⟩ := hholds₃.renumber order m hlists (by omega) hbelow
  have hrun₄' : renumberQueue order record.team record.agent ids tasks₃ = .ok tasks₄ := hrun₄
  rw [hrun₄', Fallible.bind_ok]
  refine ⟨index, hpl, hidx, rfl, ?_⟩
  have htask : (((ledger.release record taskId row).setTask (assignedColumns record taskId messageId)).enter
      m taskId index).task = Function.update ledger.task (record.team, taskId)
        (some (temporaryColumns record taskId messageId ids.length).core) := by
    rw [← Ledger.release_task ledger]
    rfl
  have hqueue : (((ledger.release record taskId row).setTask (assignedColumns record taskId messageId)).enter
      m taskId index).queue = Function.update (ledger.release record taskId row).queue m ids := by
    rw [hids, Ledger.others, ← release_queue_agent hother]
    rfl
  rw [Ledger.Pictured, htask, hqueue]
  exact hholds₄.mono (fun m' hm' => hm'.2 hm'.1)

end Assignment

end AtmCore
