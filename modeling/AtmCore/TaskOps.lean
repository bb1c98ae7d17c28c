import AtmCore.MailStore
import AtmCore.TaskQueue

/-! The ledger mutations of the writer. A message with a task id is a report, an assignment, a start or a close, and
each of them rewrites one row, renumbers the queues it touches and appends an event. A close acknowledges the
assignment message through the ordinary admission, which is the parameter `upsert` here. -/

namespace AtmCore

/-- An event before its sequence number is allocated. -/
structure TaskEventDraft where
  team : TeamName
  taskId : TaskId
  assignee : AgentName
  instant : IsoTimestamp
  event : TaskEventKind
  fromState : Option TaskStateTag
  toState : Option TaskStateTag
  closeOutcome : Option TaskCloseOutcome
  actor : AgentName
  messageId : Option AtmMessageId
  outcome : Option ReminderOutcome
  marker : Option TaskEventMarker
  detail : Option String

def taskEventsOf (events : List TaskEventColumns) (team : TeamName) (taskId : TaskId) :
    List TaskEventColumns :=
  events.filter (fun e => decide (e.team = team) && decide (e.taskId = taskId))

def nextEventSeq (events : List TaskEventColumns) (team : TeamName) (taskId : TaskId) : Nat :=
  ((taskEventsOf events team taskId).map TaskEventColumns.seq).foldr max 0 + 1

def taskEventState (tag : Option TaskStateTag) (closeOutcome : Option TaskCloseOutcome) :
    Except AtmError (Option TaskState) :=
  tag.mapM (fun tag => TaskState.fromParts tag (if tag = .complete then closeOutcome else none))

def taskActor (actor : AgentName) : TaskActor :=
  if actor.val = daemonActorName then .daemon else .member actor

def TaskEventDraft.columns (draft : TaskEventDraft) (seq : Nat) : TaskEventColumns where
  team := draft.team
  taskId := draft.taskId
  assignee := draft.assignee
  seq := seq
  instant := draft.instant
  event := draft.event
  fromState := draft.fromState
  toState := draft.toState
  closeOutcome := draft.closeOutcome
  actor := draft.actor
  messageId := draft.messageId
  outcome := draft.outcome
  marker := draft.marker
  detail := draft.detail

/-- The typed states are built before the `INSERT`, so a refused combination writes nothing. -/
def appendTaskEvent (draft : TaskEventDraft) (events : List TaskEventColumns) :
    Outcome (TaskEventRow × List TaskEventColumns) := do
  let fromState ← Outcome.lift (taskEventState draft.fromState draft.closeOutcome)
  let toState ← Outcome.lift (taskEventState draft.toState draft.closeOutcome)
  let seq := nextEventSeq events draft.team draft.taskId
  return ({
    team := draft.team
    taskId := draft.taskId
    assignee := draft.assignee
    seq := seq
    instant := draft.instant
    event := draft.event
    fromState := fromState
    toState := toState
    actor := taskActor draft.actor
    messageId := draft.messageId
    outcome := draft.outcome
    marker := draft.marker
    detail := draft.detail }, events ++ [draft.columns seq])

inductive TaskMessageResult where
  | applied (alreadyClosed : Option TaskCloseOutcome) (taskAssignee : Option AgentName)
      (queuedPosition : Option Nat) (reassignNotice : Option Message) (taskEvents : List TaskEventRow)
  | rejectedReportDelivered (error : AtmError) (event : TaskEventRow)

/-- Whether a message with a task id and no operation is a report to the assigner of the task. Anyone
else than the assigner who does not address the assigner is refused. -/
def isExistingTaskReport (record : Message) (taskId : TaskId) (tasks : TaskTable) : Outcome Bool := do
  match ← loadTaskRow tasks record.team taskId with
  | none => return false
  | some row =>
    if record.envelope.from = row.assigner then return false
    else if record.agent = row.assigner then return true
    else Outcome.fail (taskNotCounterparty
      s!"task {taskId.val} was assigned by {row.assigner.val}; caller {record.envelope.from.val} cannot reassign it")

def openRow (row : Option TaskRow) : Option TaskRow := row.filter (fun row => row.state.isOpen)

/-- `refresh_same_assignment`: a resend to the assignee of an open task rewrites the message reference
and the text, and nothing else. -/
def refreshSameAssignment (order : RowOrder) (record : Message) (taskId : TaskId) (row : Option TaskRow)
    (messageId : AtmMessageId) (tasks : TaskTable) : Outcome (Option (Nat × TaskTable)) :=
  match (openRow row).filter (fun row => decide (row.assignee = record.agent)) with
  | none => .ok none
  | some row => do
    let tasks ← updateTasks order "failed to refresh task assignment" tasks
      (fun stored => decide (stored.key = (record.team, taskId)))
      (fun stored => { stored with
        assignmentMessageId := messageId
        description := record.envelope.text
        updatedAt := record.envelope.timestamp })
      (fun _ => rfl)
    return some ((row.position.map QueuePosition.get).getD 1, tasks)

/-- Parks an open task above the queue of its assignee and closes the gap it leaves. -/
def releasePreviousAssignment (order : RowOrder) (record : Message) (taskId : TaskId)
    (row : Option TaskRow) (tasks : TaskTable) : Outcome TaskTable :=
  match openRow row with
  | none => .ok tasks
  | some row => do
    let oldOrder := (queueOrder tasks record.team row.assignee).filter (· ≠ taskId)
    let tasks ← shiftPositions order "failed to release old task position" tasks record.team row.assignee
      (oldOrder.length + 1)
    writeQueuePositions order record.team oldOrder tasks

def applyTaskAssignmentRow (order : RowOrder) (record : Message) (taskId : TaskId) (row : Option TaskRow)
    (temporary : Nat) (messageId : AtmMessageId) (nextState : TaskState) (tasks : TaskTable) :
    Outcome TaskTable :=
  let instant := record.envelope.timestamp
  if row.isSome then
    updateTasks order "failed to reassign task" tasks
      (fun stored => decide (stored.key = (record.team, taskId)))
      (fun stored => { stored with
        assignee := record.agent
        assigner := record.envelope.from
        state := nextState.tag
        closeOutcome := none
        position := some temporary
        assignmentMessageId := messageId
        description := record.envelope.text
        assignedAt := instant
        updatedAt := instant
        lastRemindedAt := none
        reminderCount := 0
        leadNotifiedCount := 0 })
      (fun _ => rfl)
  else
    insertTask "failed to insert task assignment" tasks {
      team := record.team
      taskId := taskId
      assignee := record.agent
      assigner := record.envelope.from
      state := nextState.tag
      closeOutcome := none
      position := some temporary
      assignmentMessageId := messageId
      description := record.envelope.text
      assignedAt := instant
      updatedAt := instant
      lastRemindedAt := none
      reminderCount := 0
      leadNotifiedCount := 0 }

def renumberPreviousAssignment (order : RowOrder) (record : Message) (row : Option TaskRow)
    (tasks : TaskTable) : Outcome TaskTable :=
  match openRow row with
  | none => .ok tasks
  | some old =>
    renumberQueue order record.team old.assignee (queueOrder tasks record.team old.assignee) tasks

def assignmentEventKind (row : Option TaskRow) : TaskEventKind :=
  match row with
  | none => .assigned
  | some row => if row.state.isOpen then .reassigned else .reopened

def assignmentDraft (record : Message) (taskId : TaskId) (row : Option TaskRow) (messageId : AtmMessageId)
    (nextState : TaskState) : TaskEventDraft where
  team := record.team
  taskId := taskId
  assignee := record.agent
  instant := record.envelope.timestamp
  event := assignmentEventKind row
  fromState := row.map (fun row => row.state.tag)
  toState := some nextState.tag
  closeOutcome := row.bind (fun row => row.state.closeOutcome)
  actor := record.envelope.from
  messageId := some messageId
  outcome := none
  marker := none
  detail := none

/-- The event of a placement given with an assignment, after the assignment's own. -/
def placementDraft (record : Message) (taskId : TaskId) (row : Option TaskRow) (messageId : AtmMessageId)
    (nextState : TaskState) (finalPosition : Nat) : TaskEventDraft where
  team := record.team
  taskId := taskId
  assignee := record.agent
  instant := record.envelope.timestamp
  event := .moved
  fromState := some nextState.tag
  toState := some nextState.tag
  closeOutcome := none
  actor := record.envelope.from
  messageId := some messageId
  outcome := none
  marker := none
  detail := some
    (toString (((row.bind TaskRow.position).map QueuePosition.get).getD 0) ++ "→" ++ toString finalPosition)

/-- The position of an assigned task in the order that was written. -/
def normalizedPosition (ids : List TaskId) (taskId : TaskId) : Outcome Nat :=
  match (ids.findIdx? (· = taskId)).filter (fun index => decide (index + 1 < 2 ^ 32)) with
  | some index => .ok (index + 1)
  | none => Outcome.fail (taskMoveInvalid "assigned task is absent from its normalized queue")

/-- The table part of an assignment: release, placement, the row itself, both queues. -/
def assignQueues (order : RowOrder) (record : Message) (taskId : TaskId) (placement : Option MoveTarget)
    (row : Option TaskRow) (messageId : AtmMessageId) (nextState : TaskState) (tasks : TaskTable) :
    Outcome (List TaskId × TaskTable) := do
  let tasks ← releasePreviousAssignment order record taskId row tasks
  let ids := (queueOrder tasks record.team record.agent).filter (· ≠ taskId)
  let ids ← insertAtPlacement tasks ids taskId (placement.getD .end) record.team record.agent
  if 2 ^ 32 ≤ ids.length then
    Outcome.fail (taskMoveInvalid "task queue too large")
  else do
    let tasks ← applyTaskAssignmentRow order record taskId row ids.length messageId nextState tasks
    let tasks ← renumberPreviousAssignment order record row tasks
    let tasks ← renumberQueue order record.team record.agent ids tasks
    return (ids, tasks)

def assignEvents (record : Message) (taskId : TaskId) (placement : Option MoveTarget)
    (row : Option TaskRow) (messageId : AtmMessageId) (nextState : TaskState) (finalPosition : Nat)
    (events : List TaskEventColumns) : Outcome (List TaskEventRow × List TaskEventColumns) := do
  let (event, events) ← appendTaskEvent (assignmentDraft record taskId row messageId nextState) events
  match placement with
  | none => return ([event], events)
  | some _ =>
    let (moved, events) ← appendTaskEvent
      (placementDraft record taskId row messageId nextState finalPosition) events
    return ([event, moved], events)

def persistTaskAssignment (order : RowOrder) (record : Message) (taskId : TaskId)
    (placement : Option MoveTarget) (row : Option TaskRow) (messageId : AtmMessageId)
    (nextState : TaskState) (db : Db) : Outcome (List TaskId × List TaskEventRow × Db) := do
  let (ids, tasks) ← assignQueues order record taskId placement row messageId nextState db.tasks
  let finalPosition ← normalizedPosition ids taskId
  let (rows, events) ← assignEvents record taskId placement row messageId nextState finalPosition
    db.taskEvents
  return (ids, rows, { db with tasks := tasks, taskEvents := events })

end AtmCore
