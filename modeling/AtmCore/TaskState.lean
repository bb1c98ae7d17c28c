import AtmCore.Names

/-! The task ledger's types and its pure state machine. Only a complete task has an outcome: the columns `state` and
`close_outcome` are joined by `TaskState.fromParts`, which refuses every other combination. `transition` is the
row-local table of the state machine and `admitTask` the guard on who may close a task; `transition` unwinds where the
source calls a case unreachable. -/

namespace AtmCore

inductive TaskCloseOutcome where
  | completed
  | refused
  | cancelled
  deriving DecidableEq

inductive TaskState where
  | assigned
  | active
  | complete (outcome : TaskCloseOutcome)
  deriving DecidableEq

/-- The scalar `state` column. -/
inductive TaskStateTag where
  | assigned
  | active
  | complete
  deriving DecidableEq

def TaskCloseOutcome.asStr : TaskCloseOutcome → String
  | completed => "completed"
  | refused => "refused"
  | cancelled => "cancelled"

def taskStateTagName : TaskStateTag → String
  | .assigned => "assigned"
  | .active => "active"
  | .complete => "complete"

namespace TaskState

def isOpen : TaskState → Bool
  | complete _ => false
  | _ => true

def tag : TaskState → TaskStateTag
  | assigned => .assigned
  | active => .active
  | complete _ => .complete

def closeOutcome : TaskState → Option TaskCloseOutcome
  | complete outcome => some outcome
  | _ => none

/-- The two columns joined: `complete` requires an outcome and the open states forbid one. -/
def fromParts : TaskStateTag → Option TaskCloseOutcome → Except AtmError TaskState
  | .assigned, none => .ok assigned
  | .active, none => .ok active
  | .complete, some outcome => .ok (complete outcome)
  | .complete, none => .error (.validation "complete task without close_outcome")
  | _, some _ => .error (.validation "open task with close_outcome")

@[simp] theorem fromParts_tag_closeOutcome (state : TaskState) :
    fromParts state.tag state.closeOutcome = .ok state := by
  cases state <;> rfl

theorem fromParts_eq_ok_iff {tag : TaskStateTag} {outcome : Option TaskCloseOutcome} (state : TaskState) :
    fromParts tag outcome = .ok state ↔ state.tag = tag ∧ state.closeOutcome = outcome := by
  constructor
  · intro h
    cases tag <;> cases outcome <;> cases h <;> exact ⟨rfl, rfl⟩
  · rintro ⟨rfl, rfl⟩
    exact fromParts_tag_closeOutcome state

theorem isOpen_eq_true_iff (state : TaskState) : state.isOpen = true ↔ state.tag ≠ .complete := by
  cases state <;> simp [isOpen, tag]

end TaskState

inductive TaskEvent where
  | assigned
  | started
  | completed (outcome : TaskCloseOutcome)
  deriving DecidableEq

inductive TaskActor where
  | member (name : AgentName)
  | daemon
  deriving DecidableEq

inductive TaskEventKind where
  | assigned | acked | started | completed | refused | cancelled | reassigned | reopened | rejected
  | reminded | leadNotified | moved | migrated | remindersReset
  deriving DecidableEq

def TaskEventKind.asStr : TaskEventKind → String
  | assigned => "assigned"
  | acked => "acked"
  | started => "started"
  | completed => "completed"
  | refused => "refused"
  | cancelled => "cancelled"
  | reassigned => "reassigned"
  | reopened => "reopened"
  | rejected => "rejected"
  | reminded => "reminded"
  | leadNotified => "lead_notified"
  | moved => "moved"
  | migrated => "migrated"
  | remindersReset => "reminders_reset"

inductive TaskEventMarker where
  | resend
  | assignmentMissing
  deriving DecidableEq

def TaskEventMarker.asStr : TaskEventMarker → String
  | resend => "resend"
  | assignmentMissing => "assignment_missing"

inductive ReminderOutcome where
  | emitted
  | unrenderable
  | blocked
  deriving DecidableEq

def ReminderOutcome.asStr : ReminderOutcome → String
  | emitted => "emitted"
  | unrenderable => "unrenderable"
  | blocked => "blocked"

/-- A queue position: `NonZeroU32`, with 1 at the head. -/
structure QueuePosition where
  get : Nat
  valid : 1 ≤ get ∧ get < 2 ^ 32
  deriving DecidableEq

def QueuePosition.new? (value : Nat) : Option QueuePosition :=
  if h : 1 ≤ value ∧ value < 2 ^ 32 then some ⟨value, h⟩ else none

structure TaskRow where
  team : TeamName
  taskId : TaskId
  assignee : AgentName
  assigner : AgentName
  state : TaskState
  position : Option QueuePosition
  assignmentMessageId : AtmMessageId
  description : String
  assignedAt : IsoTimestamp
  updatedAt : IsoTimestamp
  lastRemindedAt : Option IsoTimestamp
  reminderCount : Nat
  leadNotifiedCount : Nat
  deriving DecidableEq

structure TaskEventRow where
  team : TeamName
  taskId : TaskId
  assignee : AgentName
  seq : Nat
  instant : IsoTimestamp
  event : TaskEventKind
  fromState : Option TaskState
  toState : Option TaskState
  actor : TaskActor
  messageId : Option AtmMessageId
  outcome : Option ReminderOutcome
  marker : Option TaskEventMarker
  detail : Option String
  deriving DecidableEq

/-- A refusal of the state machine. -/
structure TaskRejected where
  code : AtmErrorCode
  detail : String
  deriving DecidableEq

def TaskRejected.intoAtmError (rejected : TaskRejected) : AtmError := .new rejected.code rejected.detail

def noOpenTask (taskId : TaskId) (actor : AgentName) : String :=
  s!"no open task {taskId.val} for {actor.val}"

/-- The row-local transition table. -/
def transition (state : Option TaskState) (event : TaskEvent) (taskId : TaskId) (actor : AgentName)
    (currentAssignee : Option AgentName) (requestedAssignee : AgentName) : Outcome TaskState :=
  match state, event with
  | none, .assigned => .ok .assigned
  | none, .started | none, .completed _ =>
    Outcome.fail (TaskRejected.intoAtmError ⟨.taskNotFound, noOpenTask taskId actor⟩)
  | some .assigned, .assigned => .ok .assigned
  | some .active, .assigned =>
    .ok (if currentAssignee = some requestedAssignee then .active else .assigned)
  | some (.complete _), .assigned => .ok .assigned
  | some .assigned, .started | some .active, .started => .ok .active
  | some .assigned, .completed outcome | some .active, .completed outcome => .ok (.complete outcome)
  -- "complete-row start/close is handled by the writer before transition()"
  | some (.complete _), .started | some (.complete _), .completed _ => .error .panic

/-- The guard on closing: the actor is the row's assignee or its assigner. -/
def admitTask (row : Option TaskRow) (event : TaskEvent) (taskId : TaskId) (actor : AgentName) :
    Except TaskRejected Unit :=
  match row, event with
  | none, .completed _ | none, .started => .error ⟨.taskNotFound, noOpenTask taskId actor⟩
  | none, .assigned => .ok ()
  | some row, .completed _ =>
    if actor ≠ row.assignee ∧ actor ≠ row.assigner then
      .error ⟨.taskNotCounterparty,
        s!"task {row.taskId.val} is not assigned to or by {actor.val}"⟩
    else .ok ()
  | some _, _ => .ok ()

/-- A placement in a member's queue. -/
inductive MoveTarget where
  | head
  | «end»
  | before (taskId : TaskId)
  deriving DecidableEq

/-- The task operation a message carries. -/
inductive TaskOp where
  | start
  | close (outcome : TaskCloseOutcome) (reason : Option String)
  deriving DecidableEq

end AtmCore
