import AtmCore.TaskOps

/-! The task store beside the writer lane: the reminder bookkeeping, which has an event writer of its own,
and the readers of the log. `appendEvent` writes the state column of the row and no outcome column, while
the returned event carries the whole state. -/

namespace AtmCore

def parseEvent (value : String) : Except SqliteFailure TaskEventKind :=
  match value with
  | "assigned" => .ok .assigned
  | "acked" => .ok .acked
  | "started" => .ok .started
  | "completed" => .ok .completed
  | "refused" => .ok .refused
  | "cancelled" => .ok .cancelled
  | "reassigned" => .ok .reassigned
  | "reopened" => .ok .reopened
  | "rejected" => .ok .rejected
  | "reminded" => .ok .reminded
  | "lead_notified" => .ok .leadNotified
  | "moved" => .ok .moved
  | "migrated" => .ok .migrated
  | "reminders_reset" => .ok .remindersReset
  | _ => .error (.conversion "task event")

def parseOutcome (value : String) : Except SqliteFailure ReminderOutcome :=
  match value with
  | "emitted" => .ok .emitted
  | "unrenderable" => .ok .unrenderable
  | "blocked" => .ok .blocked
  | _ => .error (.conversion "reminder outcome")

def parseMarker (value : String) : Except SqliteFailure TaskEventMarker :=
  match value with
  | "resend" => .ok .resend
  | "assignment_missing" => .ok .assignmentMissing
  | _ => .error (.conversion "task marker")

/-- A state column of an event; the outcome column belongs to it when it says `complete`. -/
def decodeEventState (state : Option TaskStateTag) (closeOutcome : Option TaskCloseOutcome) :
    Except SqliteFailure (Option TaskState) :=
  (state.map taskStateTagName).mapM (fun state =>
    parseState state (if state = "complete" then closeOutcome.map TaskCloseOutcome.asStr else none))

def decodeActor (actor : String) : Except SqliteFailure TaskActor :=
  if actor = daemonActorName then .ok .daemon
  else do
    let name ← readParsed "event actor" (Segment.parse .agent actor)
    return .member name

def decodeEventRow (row : TaskEventColumns) : Except SqliteFailure TaskEventRow := do
  let team ← readParsed "event team" (Segment.parse .team row.team.val)
  let taskId ← readParsed "event task id" (TaskId.parse row.taskId.val)
  let assignee ← readParsed "event assignee" (Segment.parse .agent row.assignee.val)
  let event ← parseEvent row.event.asStr
  let fromState ← decodeEventState row.fromState row.closeOutcome
  let toState ← decodeEventState row.toState row.closeOutcome
  let actor ← decodeActor row.actor.val
  let outcome ← (row.outcome.map ReminderOutcome.asStr).mapM parseOutcome
  let marker ← (row.marker.map TaskEventMarker.asStr).mapM parseMarker
  return {
    team := team
    taskId := taskId
    assignee := assignee
    seq := row.seq
    instant := row.instant
    event := event
    fromState := fromState
    toState := toState
    actor := actor
    messageId := row.messageId
    outcome := outcome
    marker := marker
    detail := row.detail }

/-- `list_task_events`: every event of a task, ascending, optionally of one assignee. -/
def listTaskEvents (events : List TaskEventColumns) (team : TeamName) (taskId : TaskId)
    (assignee : Option AgentName) : Except AtmError (List TaskEventRow) :=
  let selected := (taskEventsOf events team taskId).filter
    (fun e => assignee.all (fun assignee => decide (e.assignee = assignee)))
  match (selected.insertionSort (fun e f => e.seq ≤ f.seq)).mapM decodeEventRow with
  | .ok rows => .ok rows
  | .error failure => .error (sqliteError "failed to list task events" failure)

/-- The columns `append_event` names; the rest of the row is null. -/
def reminderColumns (member : MemberKey) (taskId : TaskId) (seq : Nat) (instant : IsoTimestamp)
    (event : TaskEventKind) (state : TaskState) (actor : AgentName) (messageId : Option AtmMessageId)
    (outcome : Option ReminderOutcome) : TaskEventColumns where
  team := member.team
  taskId := taskId
  assignee := member.agent
  seq := seq
  instant := instant
  event := event
  fromState := some state.tag
  toState := some state.tag
  closeOutcome := none
  actor := actor
  messageId := messageId
  outcome := outcome
  marker := none
  detail := none

def appendEvent (member : MemberKey) (taskId : TaskId) (instant : IsoTimestamp) (event : TaskEventKind)
    (state : TaskState) (actor : AgentName) (messageId : Option AtmMessageId)
    (outcome : Option ReminderOutcome) (events : List TaskEventColumns) :
    TaskEventRow × List TaskEventColumns :=
  let seq := nextEventSeq events member.team taskId
  ({
    team := member.team
    taskId := taskId
    assignee := member.agent
    seq := seq
    instant := instant
    event := event
    fromState := some state
    toState := some state
    actor := taskActor actor
    messageId := messageId
    outcome := outcome
    marker := none
    detail := none },
    events ++ [reminderColumns member taskId seq instant event state actor messageId outcome])

def daemonActor : AgentName := ⟨daemonActorName, by decide⟩

/-- One of the three bookkeeping writes: load the row, update the member's columns, append an event. -/
def recordOnTask (order : RowOrder) (member : MemberKey) (taskId : TaskId) (missing : String)
    (what : String) (set : TaskColumns → TaskColumns) (hset : ∀ row, (set row).key = row.key)
    (append : TaskState → List TaskEventColumns → TaskEventRow × List TaskEventColumns) (db : Db) :
    Outcome (TaskEventRow × Db) := do
  match ← loadTaskRow db.tasks member.team taskId with
  | none => Outcome.fail (.validation missing)
  | some row =>
    let tasks ← updateTasks order what db.tasks
      (fun stored => decide (stored.key = (member.team, taskId)) && decide (stored.assignee = member.agent))
      set hset
    let (event, events) := append row.state db.taskEvents
    return (event, { db with tasks := tasks, taskEvents := events })

/-- The row is read again before the transaction commits. -/
def reloadAfter (member : MemberKey) (taskId : TaskId) (vanished : String) (result : TaskEventRow × Db) :
    Outcome (TaskRow × TaskEventRow × Db) := do
  match ← loadTaskRow result.2.tasks member.team taskId with
  | none => Outcome.fail (.mailboxWrite vanished)
  | some row => return (row, result.1, result.2)

def recordReminder (order : RowOrder) (member : MemberKey) (taskId : TaskId) (instant : IsoTimestamp)
    (outcome : ReminderOutcome) (db : Db) : Outcome (TaskRow × TaskEventRow × Db) := do
  let result ← recordOnTask order member taskId "cannot record a reminder for a missing task"
    "failed to record task reminder"
    (fun row => { row with
      reminderCount := row.reminderCount + 1
      lastRemindedAt := some instant
      updatedAt := instant })
    (fun _ => rfl)
    (fun state => appendEvent member taskId instant .reminded state daemonActor none (some outcome)) db
  reloadAfter member taskId "task disappeared after reminder write" result

def resetReminders (order : RowOrder) (member : MemberKey) (taskId : TaskId) (instant : IsoTimestamp)
    (db : Db) : Outcome (TaskRow × TaskEventRow × Db) := do
  let result ← recordOnTask order member taskId "cannot reset reminders for a missing task"
    "failed to reset task reminders"
    (fun row => { row with reminderCount := 0, lastRemindedAt := none, updatedAt := instant })
    (fun _ => rfl)
    (fun state => appendEvent member taskId instant .remindersReset state daemonActor none none) db
  reloadAfter member taskId "task disappeared after reminder reset" result

/-- Unlike the reminders, the row is not read again. -/
def recordLeadNotified (order : RowOrder) (member : MemberKey) (taskId : TaskId) (instant : IsoTimestamp)
    (lead : AgentName) (messageId : AtmMessageId) (db : Db) : Outcome (TaskEventRow × Db) :=
  recordOnTask order member taskId "cannot record lead notification for a missing task"
    "failed to record lead notification"
    (fun row => { row with leadNotifiedCount := row.leadNotifiedCount + 1, updatedAt := instant })
    (fun _ => rfl)
    (fun state => appendEvent member taskId instant .leadNotified state lead (some messageId) none) db

end AtmCore
