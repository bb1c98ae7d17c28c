import AtmCore.MailRuns
import AtmCore.SendPipeline

/-! The policy of the queue wake pump: what one observation of a member asks for (`dispose`), the episodes in which a
member is blocked or offline, the runtime state that a poll gives a member, and the reads of the ledger it rests on. -/

namespace AtmCore

inductive RuntimeMemberState where
  | unknown
  | identityConflict
  | offline
  | idle
  | active
  | blocked
  deriving DecidableEq

inductive EpisodeKind where
  | blocked
  | offline
  deriving DecidableEq

inductive TaskDisposition where
  | nudge
  | resetReminders
  | escalateStalled
  | escalateEpisode (kind : EpisodeKind)
  | hold (reason : String)
  deriving DecidableEq

def taskStalledReminderThreshold : Nat := 10
def taskConsecutiveRefusalThreshold : Nat := 3
def maxEscalationRecipients : Nat := 8
def herdrMaxPromptsPerTick : Nat := 16

def intervalPassed (since now : IsoTimestamp) : Bool :=
  decide ((since.addMillis taskReminderIntervalMs).nanos ≤ now.nanos)

def sustainedActive (activeSince : Option IsoTimestamp) (now : IsoTimestamp) : Bool :=
  activeSince.any (fun since => intervalPassed since now)

def escalationDue (task : TaskRow) : Bool :=
  decide (task.state = .assigned) && decide (taskStalledReminderThreshold ≤ task.reminderCount) &&
    decide (task.leadNotifiedCount = 0)

def reminderDue (task : TaskRow) (now : IsoTimestamp) : Bool :=
  task.lastRemindedAt.all (fun last => intervalPassed last now)

def dispose (mailPending : Bool) (state : RuntimeMemberState) (head : Option TaskRow) (now : IsoTimestamp)
    (activeSince : Option IsoTimestamp) (newEpisode : Bool) (consecutiveRefusals : Nat) : TaskDisposition :=
  match state, head with
  | .active, some task =>
    if 0 < task.reminderCount ∧ sustainedActive activeSince now = true then .resetReminders else .hold "active"
  | .active, none => .hold "active"
  | .blocked, some _ => if newEpisode then .escalateEpisode .blocked else .hold "episode reported"
  | .blocked, none => .hold "no open task"
  | .offline, some _ => if newEpisode then .escalateEpisode .offline else .hold "episode reported"
  | .offline, none => .hold "no open task"
  | .unknown, _ => .hold "unobserved"
  | .identityConflict, _ => .hold "identity conflict"
  | .idle, none => .hold (if mailPending then "mail pending" else "no open task")
  | .idle, some task =>
    -- a started task is at work, whatever its pane reports
    if task.state = .active then .hold "task active"
    else if taskConsecutiveRefusalThreshold ≤ consecutiveRefusals then .hold "refusals escalated"
    else if escalationDue task then .escalateStalled
    else if 0 < task.leadNotifiedCount then .hold "stalled reported"
    else if taskStalledReminderThreshold ≤ task.reminderCount then .hold "stalled reported"
    else if mailPending then .hold "mail pending"
    else if reminderDue task now then .nudge
    else .hold "rate limited"

/-! Episodes -/

structure Episode where
  kind : EpisodeKind
  since : Option IsoTimestamp
  deriving DecidableEq

abbrev Episodes := MemberKey → Option Episode

def episodeKindOf : RuntimeMemberState → Option EpisodeKind
  | .blocked => some .blocked
  | .offline => some .offline
  | _ => none

/-- `observe` of a transition: whether an episode has begun. -/
def observeTransition (episodes : Episodes) (member : MemberKey) (state : RuntimeMemberState)
    (stateChangedAt : Option IsoTimestamp) : Bool × Episodes :=
  match episodeKindOf state with
  | none => (false, Function.update episodes member none)
  | some kind =>
    (decide (episodes member ≠ some ⟨kind, stateChangedAt⟩),
      Function.update episodes member (some ⟨kind, stateChangedAt⟩))

/-- `observe` of a verification: whether the episode is still the one. -/
def observeVerify (state : RuntimeMemberState) (stateChangedAt : Option IsoTimestamp) (kind : EpisodeKind)
    (since : IsoTimestamp) : Bool :=
  decide (episodeKindOf state = some kind) && decide (stateChangedAt = some since)

def holdTargetsUnavailable (episodes : Episodes) (member : MemberKey) : Episodes := Function.update episodes member none

def observeEscalationEpisodeIfEligible (episodes : Episodes) (member : MemberKey) (state : RuntimeMemberState)
    (stateChangedAt : Option IsoTimestamp) (hasOpenTask : Bool) : Bool × Episodes :=
  if (episodeKindOf state).isSome && !hasOpenTask then (false, episodes)
  else observeTransition episodes member state stateChangedAt

/-! The runtime state of a member in the roster -/

structure MemberRuntime where
  state : RuntimeMemberState
  stateChangedAt : Option IsoTimestamp
  deriving DecidableEq

def MemberRuntime.default : MemberRuntime := ⟨.unknown, none⟩

/-- The instant of a state is the one at which it was first observed. -/
def applyRuntimeObservation (next : Option RuntimeMemberState) (observedAt : IsoTimestamp) (runtime : MemberRuntime) :
    MemberRuntime :=
  match next with
  | none => runtime
  | some state => ⟨state, if state ≠ runtime.state then some observedAt else runtime.stateChangedAt⟩

inductive HerdrAgentStatus where
  | idle
  | working
  | blocked
  | done
  | unknown

def runtimeState : Option HerdrAgentStatus → RuntimeMemberState
  | none => .unknown
  | some .idle | some .done => .idle
  | some .working => .active
  | some .blocked => .blocked
  | some .unknown => .unknown

/-- A member that two intervals of polls have not seen is offline. -/
def runtimeStateWithAbsence (absences : MemberKey → Option IsoTimestamp) (member : MemberKey)
    (status : Option HerdrAgentStatus) (observedAt : IsoTimestamp) :
    RuntimeMemberState × (MemberKey → Option IsoTimestamp) :=
  match status with
  | none =>
    let startedAt := (absences member).getD observedAt
    (if (startedAt.addMillis (taskReminderIntervalMs * 2)).nanos ≤ observedAt.nanos then .offline else .unknown,
      Function.update absences member (some startedAt))
  | some status => (runtimeState (some status), Function.update absences member none)

/-! The open tasks of a team -/

/-- `ORDER BY assignee, position, assigned_at, task_id`. -/
def TaskColumns.listedBefore (r s : TaskColumns) : Prop :=
  r.assignee.val < s.assignee.val ∨ r.assignee.val = s.assignee.val ∧
    (r.position.getD 0 < s.position.getD 0 ∨ r.position.getD 0 = s.position.getD 0 ∧
      (r.assignedAt.nanos < s.assignedAt.nanos ∨ r.assignedAt.nanos = s.assignedAt.nanos ∧ r.taskId.val ≤ s.taskId.val))

instance : DecidableRel TaskColumns.listedBefore := fun r s =>
  inferInstanceAs (Decidable (r.assignee.val < s.assignee.val ∨ r.assignee.val = s.assignee.val ∧
    (r.position.getD 0 < s.position.getD 0 ∨ r.position.getD 0 = s.position.getD 0 ∧
      (r.assignedAt.nanos < s.assignedAt.nanos ∨ r.assignedAt.nanos = s.assignedAt.nanos ∧
        r.taskId.val ≤ s.taskId.val))))

/-- `team=?1 AND state<>'complete'`. -/
def TaskColumns.openIn (team : TeamName) (row : TaskColumns) : Bool := decide (row.team = team) && row.isOpen

def openTasksForTeam (tasks : TaskTable) (team : TeamName) : Except SqliteFailure (List TaskRow) :=
  ((tasks.rows.filter (TaskColumns.openIn team)).insertionSort TaskColumns.listedBefore).mapM decodeRow

/-- The open tasks of a member in the order of its queue; a team whose read fails has none. -/
def openTasksByMember (readable : TeamName → Bool) (db : Db) (member : MemberKey) : List TaskRow :=
  match openTasksForTeam db.tasks member.team with
  | .ok rows => if readable member.team then rows.filter (fun row => decide (row.assignee = member.agent)) else []
  | .error _ => []

def refusalRunEvents : List TaskEventKind := [.assigned, .reassigned, .reopened, .completed, .refused, .cancelled]

/-- The refusals at the end of what a member was given and gave back: their number and the first of them. -/
def trailingRefusalRun (events : List TaskEventColumns) (member : MemberKey) : Nat × Option IsoTimestamp :=
  let refused := (events.reverse.filter (fun event => decide (event.team = member.team) &&
    decide (event.assignee = member.agent) && decide (event.event ∈ refusalRunEvents))).takeWhile
      (fun event => decide (event.event = .refused))
  (min refused.length (2 ^ 32 - 1), refused.getLast?.map TaskEventColumns.instant)

end AtmCore
