import AtmCore.TaskLifecycle

/-! Message admission. The cron fence comes first, before a duplicate is looked up or anything is written; then the
canonical insertion; and only a message whose key was new, and that did not come from a peer, reaches the task ledger.

The source's recursion from an admission through a close into the admission of the acknowledged assignment is bounded by
`depth`. The inner admission finds its key present and stops there: `executeUpsertMessage_depth`. -/

namespace AtmCore

open Rows

def staleCronPermit : AtmError :=
  .validationWithRecovery "cron action permit is stale or its schedule is no longer active"
    "allow the current cron run to stop and let the scheduler start a fresh generation"

/-- A write of a cron run needs its schedule active at exactly the generation of the run. -/
def validateCronGenerationFence (provenance : MessageWriteOrigin) (schedules : Table CronScheduleRow.id) :
    Outcome Unit :=
  match provenance with
  | .cronRun scheduleId generation =>
    if 2 ^ 63 ≤ scheduleId then
      Outcome.fail (.validation "cron schedule id exceeds the sqlite integer range")
    else if (schedules.find? scheduleId).any
        (fun row => decide (row.generation = generation.get) && row.active) then .ok ()
    else Outcome.fail staleCronPermit
  | _ => .ok ()

/-- `WriteOpResult::UpsertMessage`. -/
structure UpsertResult where
  inserted : Bool
  existing : Option Message
  alreadyClosed : Option TaskCloseOutcome
  taskAssignee : Option AgentName
  queuedPosition : Option Nat
  reassignNotice : Option Message
  taskRejection : Option AtmError
  taskEvents : List TaskEventRow

/-- The result of an admission without task effects. -/
def UpsertResult.plain (inserted : Bool) (existing : Option Message) : UpsertResult where
  inserted := inserted
  existing := existing
  alreadyClosed := none
  taskAssignee := none
  queuedPosition := none
  reassignNotice := none
  taskRejection := none
  taskEvents := []

def UpsertResult.ofTask : TaskMessageResult → UpsertResult
  | .applied alreadyClosed taskAssignee queuedPosition reassignNotice taskEvents =>
    { UpsertResult.plain true none with
      alreadyClosed := alreadyClosed
      taskAssignee := taskAssignee
      queuedPosition := queuedPosition
      reassignNotice := reassignNotice
      taskEvents := taskEvents }
  | .rejectedReportDelivered error event =>
    { UpsertResult.plain true none with
      taskRejection := some error
      taskEvents := [event] }

/-- The body of `execute_upsert_message`, over the admission a close calls back into. -/
def admitMessage (world : World) (upsert : Message → Db → Outcome Db) (ambient : Ambient)
    (record : Message) (provenance : MessageWriteOrigin) (db : Db) : Outcome (UpsertResult × Db) := do
  validateCronGenerationFence provenance db.cronSchedules
  match ← insertMessageCanonical world record (ambient.clock 0) db with
  | (false, db) =>
    let existing ← loadExistingMessage record db
    return (UpsertResult.plain false (some existing), db)
  | (true, db) =>
    if provenance.isLocal then do
      let (result, db) ← applyTaskMessage world upsert ambient record db
      return (UpsertResult.ofTask result, db)
    else
      return (UpsertResult.plain true none, db)

def executeUpsertMessage (world : World) :
    Nat → Ambient → Message → MessageWriteOrigin → Db → Outcome (UpsertResult × Db)
  | 0, ambient, record, provenance, db =>
    admitMessage world (fun _ _ => .error .panic) ambient record provenance db
  | depth + 1, ambient, record, provenance, db =>
    admitMessage world
      (fun message db =>
        (executeUpsertMessage world depth (ambient.from 4) message .local db).map Prod.snd)
      ambient record provenance db

def upsertMessage (world : World) (ambient : Ambient) (record : Message)
    (provenance : MessageWriteOrigin) (db : Db) : Outcome (UpsertResult × Db) :=
  executeUpsertMessage world 1 ambient record provenance db

/-- How many readings one admission may take. -/
def admissionReadings : Nat := 8

/-- The admission of a key that is present: the fence, the checks of the record and the state row, and
nothing of the task ledger. -/
theorem admitMessage_of_present (world : World) (upsert : Message → Db → Outcome Db) (ambient : Ambient)
    {record : Message} (provenance : MessageWriteOrigin) {db : Db} {stored : MailRow}
    (hst : db.mailMessages.find? record.mailKey = some stored) :
    admitMessage world upsert ambient record provenance db = (do
        validateCronGenerationFence provenance db.cronSchedules
        let _ ← Outcome.lift (prepareMessageRow world record (ambient.clock 0))
        let db := { db with
          messageStates := upsertMessageState db.messageStates record (ambient.clock 0) }
        let existing ← loadExistingMessage record db
        return (UpsertResult.plain false (some existing), db)) := by
  unfold admitMessage
  rw [insertMessageCanonical_of_present hst]
  cases validateCronGenerationFence provenance db.cronSchedules with
  | error fault => rfl
  | ok _ =>
    cases prepareMessageRow world record (ambient.clock 0) with
    | error | ok => rfl

section Depth

variable {upsert upsert' : Message → Db → Outcome Db} (h : ∀ message db,
  (db.mailMessages.find? message.mailKey).isSome = true → upsert message db = upsert' message db)
include h

/-- A close reaches the nested admission only with the key of a stored message. -/
theorem acknowledgeAssignment_congr : acknowledgeAssignment upsert = acknowledgeAssignment upsert' := by
  funext record row db
  unfold acknowledgeAssignment
  cases assignmentMail db record.team row with
  | none => rfl
  | some mail =>
    dsimp only
    cases hload : loadExistingMessage { record with agent := row.assignee, messageKey := mail.messageKey } db with
    | error fault => rfl
    | ok assignment =>
      obtain ⟨hkey, stored, hst⟩ := loadExistingMessage_eq_ok hload
      simp only [Fallible.bind_ok]
      split
      · refine h _ db ?_
        rw [← hkey] at hst
        exact Option.isSome_iff_exists.mpr ⟨stored, hst⟩
      · rfl

theorem admitMessage_congr {world : World} : admitMessage world upsert = admitMessage world upsert' := by
  funext ambient record provenance db
  simp only [admitMessage, applyTaskMessage, applyTaskClose, persistTaskClose, acknowledgeAssignment_congr h]

end Depth

/-- One level of recursion is all there is. -/
theorem executeUpsertMessage_depth {world : World} {depth : Nat} {ambient : Ambient} {record : Message}
    {provenance : MessageWriteOrigin} {db : Db} :
    executeUpsertMessage world (depth + 1) ambient record provenance db =
      upsertMessage world ambient record provenance db := by
  rw [upsertMessage, executeUpsertMessage, executeUpsertMessage]
  refine congrFun (congrFun (congrFun (congrFun (admitMessage_congr ?_) ambient) record) provenance) db
  intro message db' hsome
  obtain ⟨stored, hst⟩ := Option.isSome_iff_exists.mp hsome
  -- a stored message is admitted without another look at the tasks
  cases depth with
  | zero => rfl
  | succ n =>
    rw [executeUpsertMessage, executeUpsertMessage, admitMessage_of_present world _ _ _ hst,
      admitMessage_of_present world _ _ _ hst]

end AtmCore
