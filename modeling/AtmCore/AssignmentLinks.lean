import AtmCore.LedgerMessages

/-! Where the assignment links of the ledger come from. Every statement on `tasks` either leaves the message
id of a row's assignment alone or writes the id of the assigning message, so a set of ids that has all
links of a table and the id of the message has all links after it. -/

namespace AtmCore

open Rows Fallible Table

/-- Every row's assignment is one of these messages. -/
def LinkedTo (ids : AtmMessageId → Prop) (tasks : TaskTable) : Prop :=
  ∀ row ∈ tasks.rows, ids row.assignmentMessageId

variable {order : RowOrder} {record : Message} {taskId : TaskId} {row : Option TaskRow}

section Statements

variable {ids : AtmMessageId → Prop} {tasks : TaskTable} {messageId : AtmMessageId} {team : TeamName}
  {taskIds : List TaskId} {nextState : TaskState} (h : LinkedTo ids tasks)
include h

theorem updateTasks_linked {what : String} {selects : TaskColumns → Bool} {set : TaskColumns → TaskColumns}
    {hset : ∀ row, (set row).key = row.key}
    (hlink : ∀ row, ids row.assignmentMessageId → ids (set row).assignmentMessageId) :
    Returns (LinkedTo ids) (updateTasks order what tasks selects set hset) := by
  unfold updateTasks
  dsimp only
  split
  next tasks' hrun => exact updateRows_keeps hset hlink h hrun
  · trivial

theorem writeQueuePositionsFrom_linked {index : Nat} :
    Returns (LinkedTo ids) (writeQueuePositionsFrom order team index taskIds tasks) := by
  induction taskIds generalizing index tasks with
  | nil => exact h
  | cons taskId rest ih =>
    rw [writeQueuePositionsFrom]
    split
    · trivial
    · exact Ensures.bind (updateTasks_linked h (fun _ hlink => hlink)) (fun tasks' h' => ih h')

theorem renumberQueue_linked {assignee : AgentName} :
    Returns (LinkedTo ids) (renumberQueue order team assignee taskIds tasks) := by
  unfold renumberQueue
  dsimp only
  split
  · trivial
  refine Ensures.bind (updateTasks_linked h (fun _ hlink => hlink)) (fun tasks' h' => ?_)
  refine (writeQueuePositionsFrom_linked h').bind (fun tasks'' h'' => ?_)
  split
  · trivial
  · exact h''

theorem releasePreviousAssignment_linked :
    Returns (LinkedTo ids) (releasePreviousAssignment order record taskId row tasks) := by
  unfold releasePreviousAssignment
  split
  · exact h
  · unfold shiftPositions
    refine Ensures.bind (updateTasks_linked h (fun _ hlink => hlink)) (fun tasks' h' => ?_)
    exact writeQueuePositionsFrom_linked h'

theorem assignQueues_linked {placement : Option MoveTarget} (hid : ids messageId) :
    Returns (fun result => LinkedTo ids result.2)
      (assignQueues order record taskId placement row messageId nextState tasks) := by
  refine (releasePreviousAssignment_linked h).bind (fun released hrel => ?_)
  refine .skip (fun taskIds => ?_)
  split
  · trivial
  refine Ensures.bind (P := LinkedTo ids) ?_ (fun assigned hassigned => ?_)
  · unfold applyTaskAssignmentRow
    dsimp only
    split
    · exact updateTasks_linked hrel (fun _ _ => hid)
    · unfold insertTask
      split
      next tasks' hrun => exact insertRow_keeps hrel hid hrun
      · trivial
  · refine Ensures.bind (P := LinkedTo ids) ?_ (fun renumbered hrenumbered => ?_)
    · unfold renumberPreviousAssignment
      split
      · exact hassigned
      · exact renumberQueue_linked hassigned
    · exact (renumberQueue_linked hrenumbered).bind (fun _ hlast => hlast)

theorem startQueue_linked {row : TaskRow} {active : Nat} :
    Returns (LinkedTo ids) (startQueue order record taskId row nextState active tasks) := by
  refine .skip (fun taskIds => ?_)
  refine Ensures.bind (updateTasks_linked h (fun _ hlink => hlink)) (fun tasks' h' => ?_)
  exact renumberQueue_linked h'

theorem closeQueue_linked {row : TaskRow} {outcome : TaskCloseOutcome} :
    Returns (LinkedTo ids) (closeQueue order record taskId outcome row nextState tasks) := by
  refine Ensures.bind (updateTasks_linked h (fun _ hlink => hlink)) (fun tasks' h' => ?_)
  exact renumberQueue_linked h'

theorem refreshSameAssignment_linked (hid : ids messageId) :
    Returns (fun result => ∀ refreshed, result = some refreshed → LinkedTo ids refreshed.2)
      (refreshSameAssignment order record taskId row messageId tasks) := by
  unfold refreshSameAssignment
  split
  · exact nofun
  · refine Ensures.bind (updateTasks_linked h (fun _ _ => hid)) (fun tasks' h' => ?_)
    rintro refreshed heq
    cases heq
    exact h'

end Statements

theorem LinkedTo.of_loads {ids : AtmMessageId → Prop} {tasks : TaskTable} (h : LinkedTo ids tasks) {key : TaskKey}
    {row : TaskRow} (hload : Loads tasks key (some row)) : ids row.assignmentMessageId := by
  obtain ⟨columns, hfind, hdec⟩ := hload.decodes row rfl
  have hlink : row.assignmentMessageId = columns.assignmentMessageId :=
    congrArg TaskColumns.assignmentMessageId hdec.core
  rw [hlink]
  exact h columns (mem_of_find? hfind)

theorem applyTaskMove_linked {ids : AtmMessageId → Prop} {db : Db} (ambient : Ambient) (team : TeamName)
    (taskId : TaskId) (actor : AgentName) (target : MoveTarget) (instant : IsoTimestamp) (h : LinkedTo ids db.tasks) :
    Returns (fun result => LinkedTo ids result.2.tasks)
      (applyTaskMove ambient team taskId actor target instant db) := by
  refine .skip (fun row => ?_)
  split
  · trivial
  split
  · trivial
  refine .skip (fun nextState => ?_)
  split
  · exact .skip (fun position => .skip (fun event => h))
  unfold applyQueuedTaskMove
  split
  · trivial
  refine .skip (fun taskIds => ?_)
  refine (renumberQueue_linked h).bind (fun tasks htasks => ?_)
  exact .skip (fun position => .skip (fun event => htasks))

end AtmCore
