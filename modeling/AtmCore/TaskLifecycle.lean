import AtmCore.TaskOps

/-! The four things a message can do to a task, and the queue move. Each is guarded by the row it finds. A close that
is refused for its sender or its addressee keeps the message as plain mail and leaves a rejection in the log; every
other refusal is an error and rolls the whole operation back. -/

namespace AtmCore

open Rows

def reassignNotice (record : Message) (taskId : TaskId) (oldAssignee : AgentName)
    (messageId : AtmMessageId) : Message where
  team := record.team
  agent := oldAssignee
  messageKey := .fromAtmMessageId messageId
  envelope := { record.envelope with
    text := s!"task {taskId.val} was reassigned to {record.agent.val}"
    timestamp := messageId.timestamp
    read := false
    destinationChatId := none
    summary := some s!"task_closed:{taskId.val}"
    messageId := some messageId
    requiresAck := false
    pendingAckAt := none
    acknowledgedAt := none
    acknowledgesMessageId := none
    parentMessageId := none
    threadMode := none
    expiresAt := none
    taskId := some taskId
    placement := none
    taskOp := none
    taskComplete := none
    extra := [] }

def insertReassignNotice (world : World) (ambient : Ambient) (record : Message) (taskId : TaskId)
    (oldAssignee : AgentName) (db : Db) : Outcome (Message × Db) := do
  let notice := reassignNotice record taskId oldAssignee (ambient.fresh 1)
  match ← insertMessageCanonical world notice (ambient.clock 2) db with
  | (true, db) => return (notice, db)
  | (false, _) =>
    Outcome.fail (.mailboxWrite "fresh task reassignment notice collided with an existing message key")

structure TaskAssignmentApplied where
  queuedPosition : Nat
  reassignNotice : Option Message
  taskEvents : List TaskEventRow

def applyTaskAssignment (world : World) (ambient : Ambient) (record : Message) (taskId : TaskId)
    (placement : Option MoveTarget) (db : Db) : Outcome (TaskAssignmentApplied × Db) := do
  let row ← loadTaskRow db.tasks record.team taskId
  let nextState ← transition (row.map TaskRow.state) .assigned taskId record.envelope.from
    (row.map TaskRow.assignee) record.agent
  match record.envelope.messageId with
  | none => Outcome.fail (taskMoveInvalid "task assignment is missing message id")
  | some messageId =>
    match ← refreshSameAssignment ambient.rowOrder record taskId row messageId db.tasks with
    | some (position, tasks) => return (⟨position, none, []⟩, { db with tasks := tasks })
    | none =>
      let (ids, events, db) ← persistTaskAssignment ambient.rowOrder record taskId placement row messageId
        nextState db
      let queuedPosition ← normalizedPosition ids taskId
      match (openRow row).filter (fun row => decide (row.assignee ≠ record.agent)) with
      | none => return (⟨queuedPosition, none, events⟩, db)
      | some old =>
        let (notice, db) ← insertReassignNotice world ambient record taskId old.assignee db
        return (⟨queuedPosition, some notice, events⟩, db)

def loadStartableTask (record : Message) (taskId : TaskId) (tasks : TaskTable) : Outcome TaskRow := do
  match ← loadTaskRow tasks record.team taskId with
  | none => Outcome.fail (taskNotFound (noOpenTask taskId record.envelope.from))
  | some row =>
    if !row.state.isOpen then Outcome.fail (taskAlreadyClosed (noOpenTask taskId record.envelope.from))
    else if record.envelope.from ≠ row.assignee then
      Outcome.fail (taskNotCounterparty
        s!"task {taskId.val} is not assigned to {record.envelope.from.val}")
    else return row

def maxTasksMetadataKey : String := "max_tasks"

/-- `MaxTasks::from_metadata_value`: 1 when absent or null, else an integer from 1 through `u32::MAX`. -/
def maxTasksFromMetadata : Option Value → Option Nat
  | none => some 1
  | some value =>
    if value.isNull then some 1
    else value.asU64.filter (fun n => decide (1 ≤ n) && decide (n < 2 ^ 32))

def invalidMaxTasks (record : Message) (assignee : AgentName) : AtmError :=
  .validationWithRecovery
    s!"{assignee.val} in team {record.team.val} has an invalid {maxTasksMetadataKey}: it must be an integer of at least 1"
    s!"set it with `atm teams update-member {record.team.val} {assignee.val} --max-tasks <N>`"

def memberMaxTasks (record : Message) (assignee : AgentName) (roster : Table RosterRow.member) :
    Outcome Nat :=
  match roster.find? (record.team, assignee) with
  | none => .ok 1
  | some row =>
    match row.metadata with
    | none => Outcome.fail (invalidMaxTasks record assignee)
    | some metadata =>
      match maxTasksFromMetadata (metadata.get maxTasksMetadataKey) with
      | some limit => .ok limit
      | none => Outcome.fail (invalidMaxTasks record assignee)

def otherActive (tasks : TaskTable) (team : TeamName) (assignee : AgentName) (taskId : TaskId) : Nat :=
  (tasks.rows.filter (fun row => decide (row.team = team) && decide (row.assignee = assignee) &&
    decide (row.state = .active) && decide (row.taskId ≠ taskId))).length

def rejectOverMaxTasks (record : Message) (taskId : TaskId) (row : TaskRow) (db : Db) : Outcome Nat := do
  let active := min (otherActive db.tasks record.team row.assignee taskId) (2 ^ 32 - 1)
  let limit ← memberMaxTasks record row.assignee db.teamRoster
  if limit ≤ active then
    Outcome.fail (taskMaxActiveReached
      s!"task {taskId.val}: {row.assignee.val} already has {active} active task(s); max_tasks is {limit}"
      s!"Complete or cancel an active task, or raise the limit with `atm teams update-member {record.team.val} {row.assignee.val} --max-tasks <N>`.")
  else return active

def startedDraft (record : Message) (taskId : TaskId) (row : TaskRow) (nextState : TaskState) :
    TaskEventDraft where
  team := record.team
  taskId := taskId
  assignee := row.assignee
  instant := record.envelope.timestamp
  event := .started
  fromState := some row.state.tag
  toState := some nextState.tag
  closeOutcome := none
  actor := record.envelope.from
  messageId := record.envelope.messageId
  outcome := none
  marker := none
  detail := none

/-- The table part of a start: the started group leads the queue in start order. -/
def startQueue (order : RowOrder) (record : Message) (taskId : TaskId) (row : TaskRow)
    (nextState : TaskState) (active : Nat) (tasks : TaskTable) : Outcome TaskTable := do
  let ids := (queueOrder tasks record.team row.assignee).filter (· ≠ taskId)
  let ids ← insertAt ids active taskId
  let tasks ← updateTasks order "failed to start task" tasks
    (fun stored => decide (stored.key = (record.team, taskId)))
    (fun stored => { stored with
      state := nextState.tag
      leadNotifiedCount := 0
      updatedAt := record.envelope.timestamp })
    (fun _ => rfl)
  renumberQueue order record.team row.assignee ids tasks

def applyTaskStart (ambient : Ambient) (record : Message) (taskId : TaskId) (db : Db) :
    Outcome (AgentName × TaskEventRow × Db) := do
  let row ← loadStartableTask record taskId db.tasks
  if row.state = .active then Outcome.fail (taskAlreadyActive s!"task {taskId.val} is already active")
  else do
    let nextState ← transition (some row.state) .started taskId record.envelope.from (some row.assignee)
      row.assignee
    let active ← rejectOverMaxTasks record taskId row db
    let tasks ← startQueue ambient.rowOrder record taskId row nextState active db.tasks
    let (event, events) ← appendTaskEvent (startedDraft record taskId row nextState) db.taskEvents
    return (row.assignee, event, { db with tasks := tasks, taskEvents := events })

/-- The message of a task's assignment, if the mailbox of the assignee still has it. -/
def assignmentMail (db : Db) (team : TeamName) (row : TaskRow) : Option MailRow :=
  db.mailMessages.rows.find? (fun mail => decide (mail.team = team) && decide (mail.agent = row.assignee) &&
    decide (mail.messageId = some row.assignmentMessageId))

def acknowledgeAssignment (upsert : Message → Db → Outcome Db) (record : Message) (row : TaskRow)
    (db : Db) : Outcome Db :=
  match assignmentMail db record.team row with
  | none => .ok db
  | some mail => do
    let assignment ← loadExistingMessage
      { record with agent := row.assignee, messageKey := mail.messageKey } db
    if assignment.envelope.acknowledgedAt.isNone then
      upsert (markSourceAcknowledged assignment record.envelope.timestamp) db
    else return db

def closeEventKind : TaskCloseOutcome → TaskEventKind
  | .completed => .completed
  | .refused => .refused
  | .cancelled => .cancelled

def closedDraft (record : Message) (taskId : TaskId) (outcome : TaskCloseOutcome) (reason : Option String)
    (row : TaskRow) (nextState : TaskState) : TaskEventDraft where
  team := record.team
  taskId := taskId
  assignee := row.assignee
  instant := record.envelope.timestamp
  event := closeEventKind outcome
  fromState := some row.state.tag
  toState := some nextState.tag
  closeOutcome := some outcome
  actor := record.envelope.from
  messageId := record.envelope.messageId
  outcome := none
  marker := none
  detail := reason

/-- The table part of a close. -/
def closeQueue (order : RowOrder) (record : Message) (taskId : TaskId) (outcome : TaskCloseOutcome)
    (row : TaskRow) (nextState : TaskState) (tasks : TaskTable) : Outcome TaskTable := do
  let tasks ← updateTasks order "failed to close task" tasks
    (fun stored => decide (stored.key = (record.team, taskId)))
    (fun stored => { stored with
      state := nextState.tag
      closeOutcome := some outcome
      position := none
      updatedAt := record.envelope.timestamp })
    (fun _ => rfl)
  renumberQueue order record.team row.assignee (queueOrder tasks record.team row.assignee) tasks

def persistTaskClose (upsert : Message → Db → Outcome Db) (ambient : Ambient) (record : Message)
    (taskId : TaskId) (outcome : TaskCloseOutcome) (reason : Option String) (row : TaskRow)
    (nextState : TaskState) (db : Db) : Outcome (TaskEventRow × Db) := do
  let db ← acknowledgeAssignment upsert record row db
  let tasks ← closeQueue ambient.rowOrder record taskId outcome row nextState db.tasks
  let (event, events) ← appendTaskEvent (closedDraft record taskId outcome reason row nextState)
    db.taskEvents
  return (event, { db with tasks := tasks, taskEvents := events })

def rejectedReportDraft (ambient : Ambient) (record : Message) (taskId : TaskId) (row : TaskRow)
    (error : AtmError) : TaskEventDraft where
  team := record.team
  taskId := taskId
  assignee := row.assignee
  instant := ambient.clock 3
  event := .rejected
  fromState := some row.state.tag
  toState := some row.state.tag
  closeOutcome := row.state.closeOutcome
  actor := record.envelope.from
  messageId := record.envelope.messageId
  outcome := none
  marker := none
  detail := some (error.code.asStr ++ ": " ++ error.message)

/-- Keeps a refused close as plain mail and audits the refusal. -/
def deliverRejectedCloseReport (ambient : Ambient) (record : Message) (taskId : TaskId) (row : TaskRow)
    (error : AtmError) (db : Db) : Outcome (TaskMessageResult × Db) := do
  let db := dropTaskLinkFromMail record db
  let (event, events) ← appendTaskEvent (rejectedReportDraft ambient record taskId row error) db.taskEvents
  return (.rejectedReportDelivered (.new error.code (error.detail ++ "; report delivered")) event,
    { db with taskEvents := events })

/-- The other of assignee and assigner. -/
def closeCounterparty (record : Message) (row : TaskRow) : AgentName :=
  if record.envelope.from = row.assignee then row.assigner else row.assignee

def applyTaskClose (upsert : Message → Db → Outcome Db) (ambient : Ambient) (record : Message)
    (taskId : TaskId) (outcome : TaskCloseOutcome) (reason : Option String) (db : Db) :
    Outcome (TaskMessageResult × Db) := do
  match ← loadTaskRow db.tasks record.team taskId with
  | none => Outcome.fail (taskNotFound (noOpenTask taskId record.envelope.from))
  | some row =>
    match row.state with
    | .complete already =>
      return (.applied (some already) none none none [], dropTaskLinkFromMail record db)
    | _ =>
      match admitTask (some row) (.completed outcome) taskId record.envelope.from with
      | .error rejected =>
        deliverRejectedCloseReport ambient record taskId row rejected.intoAtmError db
      | .ok () =>
        let nextState ← transition (some row.state) (.completed outcome) taskId record.envelope.from
          (some row.assignee) row.assignee
        if record.agent ≠ closeCounterparty record row then
          deliverRejectedCloseReport ambient record taskId row (taskStaleCounterparty
            s!"task {taskId.val}: {record.agent.val} is no longer the counterparty — re-run the command") db
        else do
          let (event, db) ← persistTaskClose upsert ambient record taskId outcome reason row nextState db
          return (.applied none (some row.assignee) none none [event], db)

def applyTaskMessage (world : World) (upsert : Message → Db → Outcome Db) (ambient : Ambient)
    (record : Message) (db : Db) : Outcome (TaskMessageResult × Db) :=
  match record.envelope.taskId with
  | none => .ok (.applied none none none none [], db)
  | some taskId =>
    match record.envelope.taskOp with
    | none => do
      if ← isExistingTaskReport record taskId db.tasks then
        return (.applied none none none none [], db)
      else
        let (applied, db) ← applyTaskAssignment world ambient record taskId record.envelope.placement db
        return (.applied none none (some applied.queuedPosition) applied.reassignNotice
          applied.taskEvents, db)
    | some .start => do
      let (assignee, event, db) ← applyTaskStart ambient record taskId db
      return (.applied none (some assignee) none none [event], db)
    | some (.close outcome reason) =>
      applyTaskClose upsert ambient record taskId outcome reason db

structure TaskMoveRecord where
  assignee : AgentName
  fromPosition : QueuePosition
  toPosition : QueuePosition
  event : TaskEventRow

def movedDraft (team : TeamName) (taskId : TaskId) (actor : AgentName) (instant : IsoTimestamp)
    (row : TaskRow) (nextState : TaskState) (fromPosition toPosition : QueuePosition) : TaskEventDraft where
  team := team
  taskId := taskId
  assignee := row.assignee
  instant := instant
  event := .moved
  fromState := some row.state.tag
  toState := some nextState.tag
  closeOutcome := none
  actor := actor
  messageId := none
  outcome := none
  marker := none
  detail := some (toString fromPosition.get ++ "→" ++ toString toPosition.get)

def applyQueuedTaskMove (ambient : Ambient) (team : TeamName) (taskId : TaskId) (actor : AgentName)
    (target : MoveTarget) (instant : IsoTimestamp) (row : TaskRow) (nextState : TaskState) (db : Db) :
    Outcome (TaskMoveRecord × Db) := do
  match row.position with
  | none => Outcome.fail (taskMoveInvalid "open task has no queue position")
  | some fromPosition =>
    let ids := (queueOrder db.tasks team row.assignee).filter (· ≠ taskId)
    let ids ← insertAtPlacement db.tasks ids taskId target team row.assignee
    let tasks ← renumberQueue ambient.rowOrder team row.assignee ids db.tasks
    let toPosition ← queuePositionOf ids taskId
    let (event, events) ← appendTaskEvent
      (movedDraft team taskId actor instant row nextState fromPosition toPosition) db.taskEvents
    return (⟨row.assignee, fromPosition, toPosition, event⟩, { db with tasks := tasks, taskEvents := events })

def applyTaskMove (ambient : Ambient) (team : TeamName) (taskId : TaskId) (actor : AgentName)
    (target : MoveTarget) (instant : IsoTimestamp) (db : Db) : Outcome (TaskMoveRecord × Db) := do
  match ← loadTaskRow db.tasks team taskId with
  | none => Outcome.fail (taskNotFound (noOpenTask taskId actor))
  | some row =>
    if !row.state.isOpen then Outcome.fail (taskAlreadyClosed (noOpenTask taskId actor))
    else do
      let nextState ← transition (some row.state) .assigned taskId actor (some row.assignee) row.assignee
      if row.state = .active then do
        -- an active task keeps its place: the move is recorded and changes nothing
        let position ← queuePositionOf (queueOrder db.tasks team row.assignee) taskId
        let (event, events) ← appendTaskEvent
          (movedDraft team taskId actor instant row nextState position position) db.taskEvents
        return (⟨row.assignee, position, position, event⟩, { db with taskEvents := events })
      else
        applyQueuedTaskMove ambient team taskId actor target instant row nextState db

end AtmCore
