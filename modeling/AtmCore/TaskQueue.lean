import AtmCore.TaskTables

/-! A member's queue: the open rows of the member in the order of their positions, and the statements
that rewrite the positions. `renumberQueue` works in two phases, so that the unique index is met by no
intermediate table: it first lifts every position above the occupied range and then writes `1..n` in the
given order, row by row. -/

namespace AtmCore

/-- `WHERE team=? AND assignee=? AND state<>'complete'`. -/
def TaskColumns.queuedFor (team : TeamName) (assignee : AgentName) (row : TaskColumns) : Bool :=
  decide (row.team = team) && decide (row.assignee = assignee) && row.isOpen

/-- `ORDER BY position, task_id`; a null position comes first. -/
def TaskColumns.queuedBefore (r s : TaskColumns) : Prop :=
  r.position.getD 0 < s.position.getD 0 ∨
    (r.position.getD 0 = s.position.getD 0 ∧ r.taskId.val ≤ s.taskId.val)

instance : DecidableRel TaskColumns.queuedBefore := fun r s =>
  inferInstanceAs (Decidable (r.position.getD 0 < s.position.getD 0 ∨
    (r.position.getD 0 = s.position.getD 0 ∧ r.taskId.val ≤ s.taskId.val)))

def openRows (tasks : TaskTable) (team : TeamName) (assignee : AgentName) : List TaskColumns :=
  tasks.rows.filter (TaskColumns.queuedFor team assignee)

def queueOrder (tasks : TaskTable) (team : TeamName) (assignee : AgentName) : List TaskId :=
  ((openRows tasks team assignee).insertionSort TaskColumns.queuedBefore).map TaskColumns.taskId

/-- `SELECT COALESCE(MAX(position),0)` over the open rows of a member. -/
def maxPosition (tasks : TaskTable) (team : TeamName) (assignee : AgentName) : Nat :=
  ((openRows tasks team assignee).filterMap TaskColumns.position).foldr max 0

/-- `UPDATE tasks SET position=position+? WHERE team=? AND assignee=? AND state<>'complete'`. -/
def shiftPositions (order : RowOrder) (what : String) (tasks : TaskTable) (team : TeamName)
    (assignee : AgentName) (offset : Nat) : Outcome TaskTable :=
  updateTasks order what tasks (TaskColumns.queuedFor team assignee)
    (fun row => { row with position := row.position.map (· + offset) }) (fun _ => rfl)

/-- `UPDATE tasks SET position=? WHERE team=? AND task_id=?`, for the ids from `index` on. -/
def writeQueuePositionsFrom (order : RowOrder) (team : TeamName) :
    Nat → List TaskId → TaskTable → Outcome TaskTable
  | _, [], tasks => .ok tasks
  | index, taskId :: rest, tasks =>
    if 2 ^ 63 ≤ index + 1 then Outcome.fail (taskMoveInvalid "task queue too large")
    else
      (updateTasks order "failed to renumber task queue" tasks
        (fun row => decide (row.key = (team, taskId)))
        (fun row => { row with position := some (index + 1) }) (fun _ => rfl)).bind
        (writeQueuePositionsFrom order team (index + 1) rest)

def writeQueuePositions (order : RowOrder) (team : TeamName) (ids : List TaskId) (tasks : TaskTable) :
    Outcome TaskTable :=
  writeQueuePositionsFrom order team 0 ids tasks

def renumberQueue (order : RowOrder) (team : TeamName) (assignee : AgentName) (ids : List TaskId)
    (tasks : TaskTable) : Outcome TaskTable :=
  let offset := maxPosition tasks team assignee + ids.length
  if 2 ^ 63 ≤ offset then Outcome.fail (taskMoveInvalid "task queue too large")
  else do
    let tasks ← shiftPositions order "failed to offset task queue" tasks team assignee offset
    let tasks ← writeQueuePositions order team ids tasks
    if (openRows tasks team assignee).length ≠ maxPosition tasks team assignee then
      Outcome.fail (taskMoveInvalid s!"task queue for {assignee.val} is not contiguous")
    else
      return tasks

/-- `Vec::insert`, which unwinds past the end. -/
def insertAt (ids : List TaskId) (index : Nat) (taskId : TaskId) : Outcome (List TaskId) :=
  if index ≤ ids.length then .ok (ids.insertIdx index taskId) else .error .panic

/-- The states of a member's other open tasks in queue order. -/
def queueStates (tasks : TaskTable) (team : TeamName) (assignee : AgentName) (taskId : TaskId) :
    List TaskStateTag :=
  (((openRows tasks team assignee).filter (fun row => decide (row.taskId ≠ taskId))).insertionSort
    TaskColumns.queuedBefore).map TaskColumns.state

def placementInvalid (taskId other : TaskId) (assignee : AgentName) : AtmError :=
  taskMoveInvalid s!"task {taskId.val}: placement target {other.val} is not an open queued task of {assignee.val}"

/-- The index a placement stands for in the queue without the task. -/
def placementIndex (tasks : TaskTable) (ids : List TaskId) (taskId : TaskId) (placement : MoveTarget)
    (team : TeamName) (assignee : AgentName) : Outcome Nat :=
  match placement with
  | .end => .ok ids.length
  -- the first unstarted place, after every leading active task
  | .head => .ok ((queueStates tasks team assignee taskId).takeWhile (· = .active)).length
  | .before other => do
    let row ← loadTaskRow tasks team other
    if row.any (fun row => decide (row.assignee = assignee) && decide (row.state = .assigned)) then
      match ids.findIdx? (· = other) with
      | some index => return index
      | none => Outcome.fail (placementInvalid taskId other assignee)
    else
      Outcome.fail (placementInvalid taskId other assignee)

def insertAtPlacement (tasks : TaskTable) (ids : List TaskId) (taskId : TaskId) (placement : MoveTarget)
    (team : TeamName) (assignee : AgentName) : Outcome (List TaskId) := do
  let index ← placementIndex tasks ids taskId placement team assignee
  insertAt ids index taskId

def queuePositionOf (ids : List TaskId) (taskId : TaskId) : Outcome QueuePosition :=
  match (ids.findIdx? (· = taskId)).bind (fun index => QueuePosition.new? (index + 1)) with
  | some position => .ok position
  | none => Outcome.fail (taskMoveInvalid "task move produced no queue position")

end AtmCore
