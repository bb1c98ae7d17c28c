import AtmCore.QueueOrder
import AtmCore.TaskLifecycle
import AtmCore.TaskStore
import Mathlib.Logic.Function.Basic

/-! What the task ledger is for, without tables: a task under each key, a queue of task ids for each member and a log
for each task. A step is one of the things that may happen to a ledger, with what it requires of the ledger before it
and of the message behind it. Positions do not occur: a task's position is its place in the queue. -/

namespace AtmCore

/-- A stored row without its place in a queue. -/
def TaskColumns.core (row : TaskColumns) : TaskColumns := { row with position := none }

/-- The columns a decoded row was read from, without the position. -/
def TaskRow.core (row : TaskRow) : TaskColumns where
  team := row.team
  taskId := row.taskId
  assignee := row.assignee
  assigner := row.assigner
  state := row.state.tag
  closeOutcome := row.state.closeOutcome
  position := none
  assignmentMessageId := row.assignmentMessageId
  description := row.description
  assignedAt := row.assignedAt
  updatedAt := row.updatedAt
  lastRemindedAt := row.lastRemindedAt
  reminderCount := row.reminderCount
  leadNotifiedCount := row.leadNotifiedCount

structure Ledger where
  task : TaskKey → Option TaskColumns
  queue : MemberKey → List TaskId
  log : TaskKey → List TaskEventColumns

namespace Ledger

def empty : Ledger where
  task _ := none
  queue _ := []
  log _ := []

def setTask (ledger : Ledger) (row : TaskColumns) : Ledger :=
  { ledger with task := Function.update ledger.task row.key (some row.core) }

def setQueue (ledger : Ledger) (member : MemberKey) (ids : List TaskId) : Ledger :=
  { ledger with queue := Function.update ledger.queue member ids }

def others (ledger : Ledger) (member : MemberKey) (taskId : TaskId) : List TaskId :=
  (ledger.queue member).filter (· ≠ taskId)

def leave (ledger : Ledger) (member : MemberKey) (taskId : TaskId) : Ledger :=
  ledger.setQueue member (ledger.others member taskId)

/-- The task stands at `index` in the queue, wherever it stood in it before. -/
def enter (ledger : Ledger) (member : MemberKey) (taskId : TaskId) (index : Nat) : Ledger :=
  ledger.setQueue member ((ledger.others member taskId).insertIdx index taskId)

def append (ledger : Ledger) (draft : TaskEventDraft) : Ledger :=
  let events := ledger.log (draft.team, draft.taskId)
  { ledger with
    log := Function.update ledger.log (draft.team, draft.taskId)
      (events ++ [draft.columns ((events.map TaskEventColumns.seq).foldr max 0 + 1)]) }

def stateOf (ledger : Ledger) (key : TaskKey) : Option TaskStateTag :=
  (ledger.task key).map TaskColumns.state

/-- The index a placement means in a member's queue without the task. -/
def PlacedAt (ledger : Ledger) (member : MemberKey) (taskId : TaskId) : MoveTarget → Nat → Prop
  | .end, index => index = (ledger.others member taskId).length
  | .head, index => index = ((ledger.others member taskId).takeWhile
      (fun id => decide (ledger.stateOf (member.team, id) = some .active))).length
  | .before other, index => ledger.stateOf (member.team, other) = some .assigned ∧
      (ledger.others member taskId).findIdx? (· = other) = some index

def othersActive (ledger : Ledger) (member : MemberKey) (taskId : TaskId) : Nat :=
  (ledger.others member taskId).countP (fun id => decide (ledger.stateOf (member.team, id) = some .active))

end Ledger

def assignedColumns (record : Message) (taskId : TaskId) (messageId : AtmMessageId) : TaskColumns where
  team := record.team
  taskId := taskId
  assignee := record.agent
  assigner := record.envelope.from
  state := .assigned
  closeOutcome := none
  position := none
  assignmentMessageId := messageId
  description := record.envelope.text
  assignedAt := record.envelope.timestamp
  updatedAt := record.envelope.timestamp
  lastRemindedAt := none
  reminderCount := 0
  leadNotifiedCount := 0

/-- The ledger without the task in the queue of its open row. -/
def Ledger.release (ledger : Ledger) (record : Message) (taskId : TaskId) (row : Option TaskRow) : Ledger :=
  match openRow row with
  | none => ledger
  | some old => ledger.leave ⟨record.team, old.assignee⟩ taskId

variable {row : TaskColumns} {member : MemberKey} {taskId : TaskId} {first last : Ledger}

section

variable (ledger : Ledger)

@[simp] theorem Ledger.setTask_log : (ledger.setTask row).log = ledger.log := rfl

@[simp] theorem Ledger.enter_task {index : Nat} :
    (ledger.enter member taskId index).task = ledger.task := rfl

@[simp] theorem Ledger.enter_log {index : Nat} :
    (ledger.enter member taskId index).log = ledger.log := rfl

@[simp] theorem Ledger.append_task {draft : TaskEventDraft} :
    (ledger.append draft).task = ledger.task := rfl

@[simp] theorem Ledger.release_task {record : Message} {row : Option TaskRow} :
    (ledger.release record taskId row).task = ledger.task := by
  unfold Ledger.release
  split <;> rfl

@[simp] theorem Ledger.release_log {record : Message} {row : Option TaskRow} :
    (ledger.release record taskId row).log = ledger.log := by
  unfold Ledger.release
  split <;> rfl

theorem Ledger.setTask_task_self {key : TaskKey} (hkey : row.key = key) :
    (ledger.setTask row).task key = some row.core := by
  rw [← hkey]
  exact Function.update_self _ _ _

theorem Ledger.setTask_task_of_ne {key : TaskKey} (hkey : key ≠ row.key) :
    (ledger.setTask row).task key = ledger.task key :=
  Function.update_of_ne hkey _ _

end

/-- An assignment takes the task out of the queue of its open row and puts it into the queue of the
addressee. A placement logs a second event. -/
def Ledger.assign (ledger : Ledger) (record : Message) (taskId : TaskId) (row : Option TaskRow)
    (placement : Option MoveTarget) (messageId : AtmMessageId) (index : Nat) : Ledger :=
  let queued := ((ledger.release record taskId row).setTask (assignedColumns record taskId messageId)).enter
    ⟨record.team, record.agent⟩ taskId index
  let logged := queued.append (assignmentDraft record taskId row messageId .assigned)
  match placement with
  | none => logged
  | some _ => logged.append (placementDraft record taskId row messageId .assigned (index + 1))

/-- The bookkeeping writes of the reminder pump. -/
inductive ReminderWrite where
  | reminded (instant : IsoTimestamp) (outcome : ReminderOutcome)
  | reset (instant : IsoTimestamp)
  | leadNotified (instant : IsoTimestamp) (lead : AgentName) (messageId : AtmMessageId)

def ReminderWrite.change : ReminderWrite → TaskColumns → TaskColumns
  | .reminded instant _, row =>
    { row with reminderCount := row.reminderCount + 1, lastRemindedAt := some instant, updatedAt := instant }
  | .reset instant, row =>
    { row with reminderCount := 0, lastRemindedAt := none, updatedAt := instant }
  | .leadNotified instant _ _, row =>
    { row with leadNotifiedCount := row.leadNotifiedCount + 1, updatedAt := instant }

/-- The event of a bookkeeping write, under the name of the member it was made for. -/
def ReminderWrite.draft (write : ReminderWrite) (member : MemberKey) (taskId : TaskId) (state : TaskState) :
    TaskEventDraft where
  team := member.team
  taskId := taskId
  assignee := member.agent
  instant := match write with
    | .reminded instant _ | .reset instant | .leadNotified instant _ _ => instant
  event := match write with
    | .reminded _ _ => .reminded
    | .reset _ => .remindersReset
    | .leadNotified _ _ _ => .leadNotified
  fromState := some state.tag
  toState := some state.tag
  closeOutcome := none
  actor := match write with
    | .reminded _ _ | .reset _ => daemonActor
    | .leadNotified _ lead _ => lead
  messageId := match write with
    | .reminded _ _ | .reset _ => none
    | .leadNotified _ _ messageId => some messageId
  outcome := match write with
    | .reminded _ outcome => some outcome
    | .reset _ | .leadNotified _ _ _ => none
  marker := none
  detail := none

def Message.Asks (record : Message) (taskId : TaskId) (op : Option TaskOp) : Prop :=
  record.envelope.taskId = some taskId ∧ record.envelope.taskOp = op

/-- Who is behind a step. -/
inductive LedgerAct where
  | message (record : Message)
  | move (team : TeamName) (taskId : TaskId) (actor : AgentName)
  | audit
  | reminder

/-- An event that records an attempt and says that the task stays as it is. -/
structure TaskEventDraft.Refusal (draft : TaskEventDraft) (row : Option TaskRow) : Prop where
  event : draft.event = .rejected
  fromState : draft.fromState = row.map (fun row => row.state.tag)
  toState : draft.toState = row.map (fun row => row.state.tag)
  closeOutcome : draft.closeOutcome = row.bind (fun row => row.state.closeOutcome)

/-- One thing that happens to a ledger. -/
inductive LedgerStep : LedgerAct → Ledger → Ledger → Prop where
  | refreshed {ledger : Ledger} (record : Message) (taskId : TaskId) (messageId : AtmMessageId) (row : TaskRow)
      (hsubject : record.Asks taskId none)
      (hrow : ledger.task (record.team, taskId) = some row.core) (hopen : row.state.isOpen = true)
      (hassignee : row.assignee = record.agent) (hassigner : record.envelope.from = row.assigner) :
      LedgerStep (.message record) ledger (ledger.setTask { row.core with
        assignmentMessageId := messageId
        description := record.envelope.text
        updatedAt := record.envelope.timestamp })
  | assigned {ledger : Ledger} (record : Message) (taskId : TaskId) (messageId : AtmMessageId)
      (row : Option TaskRow) (placement : Option MoveTarget) (index : Nat)
      (hsubject : record.Asks taskId none)
      (hrow : ledger.task (record.team, taskId) = row.map TaskRow.core)
      (hassigner : ∀ old, row = some old → record.envelope.from = old.assigner)
      (hother : ∀ old, row = some old → old.state.isOpen = true → old.assignee ≠ record.agent)
      (hplaced : ledger.PlacedAt ⟨record.team, record.agent⟩ taskId (placement.getD .end) index) :
      LedgerStep (.message record) ledger (ledger.assign record taskId row placement messageId index)
  | started {ledger : Ledger} (record : Message) (taskId : TaskId) (row : TaskRow)
      (hsubject : record.Asks taskId (some .start))
      (hrow : ledger.task (record.team, taskId) = some row.core) (hstate : row.state = .assigned)
      (hassignee : record.envelope.from = row.assignee) :
      LedgerStep (.message record) ledger (((ledger.setTask { row.core with
        state := .active
        leadNotifiedCount := 0
        updatedAt := record.envelope.timestamp }).enter ⟨record.team, row.assignee⟩ taskId
          (ledger.othersActive ⟨record.team, row.assignee⟩ taskId)).append
        (startedDraft record taskId row .active))
  | closed {ledger : Ledger} (record : Message) (taskId : TaskId) (row : TaskRow) (outcome : TaskCloseOutcome)
      (reason : Option String) (hsubject : record.Asks taskId (some (.close outcome reason)))
      (hrow : ledger.task (record.team, taskId) = some row.core)
      (hopen : row.state.isOpen = true)
      (hparties : (record.envelope.from = row.assignee ∧ record.agent = row.assigner) ∨
        (record.envelope.from = row.assigner ∧ record.agent = row.assignee)) :
      LedgerStep (.message record) ledger (((ledger.setTask { row.core with
        state := .complete
        closeOutcome := some outcome
        updatedAt := record.envelope.timestamp }).leave ⟨record.team, row.assignee⟩ taskId).append
        (closedDraft record taskId outcome reason row (.complete outcome)))
  | moved {ledger : Ledger} (team : TeamName) (taskId : TaskId) (actor : AgentName) (target : MoveTarget)
      (instant : IsoTimestamp) (row : TaskRow) (fromPosition toPosition : QueuePosition) (index : Nat)
      (hrow : ledger.task (team, taskId) = some row.core) (hstate : row.state = .assigned)
      (hplaced : ledger.PlacedAt ⟨team, row.assignee⟩ taskId target index)
      (hfrom : fromPosition.get = place (ledger.queue ⟨team, row.assignee⟩) taskId)
      (hto : toPosition.get = index + 1) :
      LedgerStep (.move team taskId actor) ledger ((ledger.enter ⟨team, row.assignee⟩ taskId index).append
        (movedDraft team taskId actor instant row row.state fromPosition toPosition))
  | kept {ledger : Ledger} (team : TeamName) (taskId : TaskId) (actor : AgentName) (instant : IsoTimestamp)
      (row : TaskRow) (position : QueuePosition) (hrow : ledger.task (team, taskId) = some row.core)
      (hstate : row.state = .active)
      (hposition : position.get = place (ledger.queue ⟨team, row.assignee⟩) taskId) :
      LedgerStep (.move team taskId actor) ledger
        (ledger.append (movedDraft team taskId actor instant row row.state position position))
  | refused {ledger : Ledger} (act : LedgerAct) (draft : TaskEventDraft) (row : Option TaskRow)
      (hrow : ledger.task (draft.team, draft.taskId) = row.map TaskRow.core) (hdraft : draft.Refusal row) :
      LedgerStep act ledger (ledger.append draft)
  | reminder {ledger : Ledger} (write : ReminderWrite) (member : MemberKey) (taskId : TaskId) (row : TaskRow)
      (hrow : ledger.task (member.team, taskId) = some row.core) :
      LedgerStep .reminder ledger ((ledger.setTask
        (if row.assignee = member.agent then write.change row.core else row.core)).append
        (write.draft member taskId row.state))

/-- A sequence of steps, with who is behind each of them. -/
inductive LedgerPath : List LedgerAct → Ledger → Ledger → Prop where
  | refl (ledger : Ledger) : LedgerPath [] ledger ledger
  | step {act : LedgerAct} {acts : List LedgerAct} {first second last : Ledger}
      (hstep : LedgerStep act first second) (hrest : LedgerPath acts second last) :
      LedgerPath (act :: acts) first last

theorem LedgerPath.single {act : LedgerAct} (h : LedgerStep act first last) : LedgerPath [act] first last :=
  .step h (.refl last)

theorem LedgerPath.append {acts acts' : List LedgerAct} {second : Ledger} (h : LedgerPath acts first second)
    (h' : LedgerPath acts' second last) : LedgerPath (acts ++ acts') first last := by
  induction h with
  | refl ledger => exact h'
  | step hstep _ ih => exact .step hstep (ih h')

theorem LedgerPath.invariant {P : Ledger → Prop}
    (hstep : ∀ {act first second}, LedgerStep act first second → P first → P second) {acts : List LedgerAct}
    (h : LedgerPath acts first last) (hfirst : P first) : P last := by
  induction h with
  | refl ledger => exact hfirst
  | step hs _ ih => exact ih (hstep hs hfirst)

end AtmCore
