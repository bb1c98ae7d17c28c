import AtmCore.Envelope
import AtmCore.TableIndex

/-! The two tables of the task ledger. Columns are typed where the schema constrains their text; the decoders read them
through that text, as the source does, so a state that was written without its outcome does not decode.

No two open rows of a member have the same position. An `UPDATE` takes its rows in whatever order the query planner
picks, which is an input here: `RowOrder` is any function that permutes the keys of the rows. -/

namespace AtmCore

open Rows

structure TaskColumns where
  team : TeamName
  taskId : TaskId
  assignee : AgentName
  assigner : AgentName
  state : TaskStateTag
  closeOutcome : Option TaskCloseOutcome
  position : Option Nat
  assignmentMessageId : AtmMessageId
  description : String
  assignedAt : IsoTimestamp
  updatedAt : IsoTimestamp
  lastRemindedAt : Option IsoTimestamp
  reminderCount : Nat
  leadNotifiedCount : Nat
  deriving DecidableEq

abbrev TaskKey := TeamName × TaskId

def TaskColumns.key (row : TaskColumns) : TaskKey := (row.team, row.taskId)

abbrev TaskTable := Table TaskColumns.key

/-- `state <> 'complete'`. -/
def TaskColumns.isOpen (row : TaskColumns) : Bool := decide (row.state ≠ .complete)

def TaskColumns.wellFormed (row : TaskColumns) : Bool :=
  (row.position.all (fun p => 1 ≤ p)) &&
    (decide (row.state = .complete) == row.closeOutcome.isSome) &&
    (decide (row.state = .complete) == row.position.isNone)

/-- `tasks_position_per_member`, a unique index over the open rows. -/
def TaskColumns.positionIndex (row : TaskColumns) : Option (TeamName × AgentName × Nat) :=
  if row.isOpen then row.position.map (fun p => (row.team, row.assignee, p)) else none

def taskGuard : Guard TaskColumns (TeamName × AgentName × Nat) SqliteFailure where
  check row := if row.wellFormed then none else some (.constraint .tasksCheck)
  index := TaskColumns.positionIndex
  clash := .constraint .tasksPositionPerMember

/-- The order in which a statement visits its rows. It may depend on the table. -/
structure RowOrder where
  visit : TaskTable → List TaskKey → List TaskKey
  perm : ∀ tasks keys, (visit tasks keys).Perm keys

def updateTasks (order : RowOrder) (what : String) (tasks : TaskTable) (selects : TaskColumns → Bool)
    (set : TaskColumns → TaskColumns) (hset : ∀ row, (set row).key = row.key) : Outcome TaskTable :=
  let keys := (tasks.rows.filter selects).map TaskColumns.key
  match Table.updateRows taskGuard set hset (order.visit tasks keys) tasks with
  | .ok tasks => .ok tasks
  | .error failure => Outcome.fail (sqliteError what failure)

def insertTask (what : String) (tasks : TaskTable) (row : TaskColumns) : Outcome TaskTable :=
  match Table.insertRow taskGuard (.constraint .tasksPrimaryKey) tasks row with
  | .ok tasks => .ok tasks
  | .error failure => Outcome.fail (sqliteError what failure)

structure TaskEventColumns where
  team : TeamName
  taskId : TaskId
  assignee : AgentName
  seq : Nat
  instant : IsoTimestamp
  event : TaskEventKind
  fromState : Option TaskStateTag
  toState : Option TaskStateTag
  closeOutcome : Option TaskCloseOutcome
  actor : AgentName
  messageId : Option AtmMessageId
  outcome : Option ReminderOutcome
  marker : Option TaskEventMarker
  detail : Option String
  deriving DecidableEq

/-- A `u32` column read. -/
def readU32 (column : String) (value : Nat) : Except SqliteFailure Nat :=
  if value < 2 ^ 32 then .ok value else .error (.conversion column)

/-- `parse`: a text column read through `FromStr`. -/
def readParsed {α : Type} (column : String) : Except AtmError α → Except SqliteFailure α
  | .ok value => .ok value
  | .error _ => .error (.conversion column)

def parseCloseOutcome (value : String) : Except SqliteFailure TaskCloseOutcome :=
  match value with
  | "completed" => .ok .completed
  | "refused" => .ok .refused
  | "cancelled" => .ok .cancelled
  | _ => .error (.conversion "task close outcome")

def parseStateTag (value : String) : Except SqliteFailure TaskStateTag :=
  match value with
  | "assigned" => .ok .assigned
  | "active" => .ok .active
  | "complete" => .ok .complete
  | _ => .error (.conversion "task state")

def parseState (value : String) (closeOutcome : Option String) : Except SqliteFailure TaskState := do
  let tag ← parseStateTag value
  let outcome ← closeOutcome.mapM parseCloseOutcome
  readParsed "task state" (TaskState.fromParts tag outcome)

def decodeRow (row : TaskColumns) : Except SqliteFailure TaskRow := do
  let position ← row.position.mapM (readU32 "position")
  let reminderCount ← readU32 "reminder_count" row.reminderCount
  let leadNotifiedCount ← readU32 "lead_notified_count" row.leadNotifiedCount
  let team ← readParsed "task team" (Segment.parse .team row.team.val)
  let taskId ← readParsed "task id" (TaskId.parse row.taskId.val)
  let assignee ← readParsed "task assignee" (Segment.parse .agent row.assignee.val)
  let assigner ← readParsed "task assigner" (Segment.parse .agent row.assigner.val)
  let state ← parseState (taskStateTagName row.state) (row.closeOutcome.map TaskCloseOutcome.asStr)
  return {
    team := team
    taskId := taskId
    assignee := assignee
    assigner := assigner
    state := state
    position := position.bind QueuePosition.new?
    assignmentMessageId := row.assignmentMessageId
    description := row.description
    assignedAt := row.assignedAt
    updatedAt := row.updatedAt
    lastRemindedAt := row.lastRemindedAt
    reminderCount := reminderCount
    leadNotifiedCount := leadNotifiedCount }

def selectTaskRow (tasks : TaskTable) (team : TeamName) (taskId : TaskId) :
    Except SqliteFailure (Option TaskRow) :=
  (tasks.find? (team, taskId)).mapM decodeRow

def loadTaskRow (tasks : TaskTable) (team : TeamName) (taskId : TaskId) : Outcome (Option TaskRow) :=
  match selectTaskRow tasks team taskId with
  | .ok row => .ok row
  | .error failure => Outcome.fail (sqliteError "failed to load task row" failure)

end AtmCore
