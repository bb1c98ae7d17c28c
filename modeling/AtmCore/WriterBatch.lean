import AtmCore.BatchGroups
import AtmCore.TaskStore
import AtmCore.WriteOps

/-! The writer lane. A queued operation runs in a savepoint. When it fails, the savepoint is dropped and the refusal
of a task operation is audited on the transaction itself; when it unwinds, nothing is audited. A batch runs in one
immediate transaction, in which neighbouring message admissions share a savepoint. -/

namespace AtmCore

open Batching

/-- A refused reassignment is an authorisation failure before the task is admitted, and is not audited. -/
def isPreAdmissionReassignmentRefusal (op : WriteOp) (error : AtmError) : Bool :=
  match op with
  | .upsertMessage record provenance =>
    provenance.isLocal && record.envelope.taskOp.isNone && decide (error.code = .taskNotCounterparty)
  | _ => false

/-- What a refused task operation is audited against. -/
structure RejectedSubject where
  team : TeamName
  taskId : TaskId
  requested : AgentName
  actor : AgentName
  messageId : Option AtmMessageId

def rejectedEventSubject (op : WriteOp) (db : Db) : Outcome (Option RejectedSubject) :=
  match op with
  | .upsertMessage record provenance =>
    .ok (if provenance.isLocal then
      record.envelope.taskId.map (fun taskId =>
        ⟨record.team, taskId, record.agent, record.envelope.from, record.envelope.messageId⟩)
      else none)
  | .acknowledge source _ _ => do
    let source ← loadPendingAckSource source db
    return source.envelope.taskId.map (fun taskId =>
      ⟨source.team, taskId, source.agent, source.agent, source.envelope.messageId⟩)
  | .taskMove team taskId actor _ _ _ => .ok (some ⟨team, taskId, actor, actor, none⟩)
  | _ => .ok none

def rejectedDraft (ambient : Ambient) (subject : RejectedSubject) (row : Option TaskRow)
    (error : AtmError) : TaskEventDraft where
  team := subject.team
  taskId := subject.taskId
  assignee := (row.map TaskRow.assignee).getD subject.requested
  instant := ambient.audit
  event := .rejected
  fromState := row.map (fun row => row.state.tag)
  toState := row.map (fun row => row.state.tag)
  closeOutcome := row.bind (fun row => row.state.closeOutcome)
  actor := subject.actor
  messageId := subject.messageId
  outcome := none
  marker := none
  detail := some (error.code.asStr ++ ": " ++ error.message)

def appendRejectedTaskEvent (ambient : Ambient) (op : WriteOp) (error : AtmError) (db : Db) :
    Outcome (Option TaskEventRow × Db) :=
  if !isTaskRejection error.code || isPreAdmissionReassignmentRefusal op error then .ok (none, db)
  else do
    match ← rejectedEventSubject op db with
    | none => return (none, db)
    | some subject =>
      let row ← loadTaskRow db.tasks subject.team subject.taskId
      let (event, events) ← appendTaskEvent (rejectedDraft ambient subject row error) db.taskEvents
      return (some event, { db with taskEvents := events })

/-- A write the transaction keeps, refused or not, with the audit it left. -/
structure CommittedTaskWrite where
  operation : Except AtmError WriteOpResult
  taskEvents : List TaskEventRow

abbrev Reply := Except AtmError CommittedTaskWrite

structure QueuedWrite where
  op : WriteOp
  ambient : Ambient

def writerPanicked : AtmError := .daemonUnavailable "sqlite writer operation panicked"

def committedReply (result : WriteOpResult) : Reply := .ok ⟨.ok result, []⟩

def processQueuedWrite (world : World) (queued : QueuedWrite) (db : Db) : Reply × Db :=
  match execute world queued.ambient queued.op db with
  | .ok (result, written) => (committedReply result, written)
  | .error .panic => (.error writerPanicked, db)
  | .error (.err error) =>
    match appendRejectedTaskEvent queued.ambient queued.op error db with
    | .ok (event, audited) => (.ok ⟨.error error, event.toList⟩, audited)
    | .error (.err auditError) => (.error auditError, db)
    | .error .panic => (.error writerPanicked, db)

def isBatchableMessageAdmission (queued : QueuedWrite) : Bool :=
  match queued.op with
  | .upsertMessage _ _ => true
  | _ => false

def finalizeCommittedReply (commitError : Option AtmError) (result : Reply) : Reply :=
  match commitError with
  | none => result
  | some error =>
    match result with
    | .ok committed =>
      match committed.operation with
      | .ok _ => .error error
      | .error refusal => .error refusal
    | .error existing => .error existing

/-- One transaction around a way to run the queue. -/
def inTransaction (openError commitError : Option AtmError) (batch : List QueuedWrite)
    (run : List QueuedWrite → Db → List Reply × Db) (db : Db) : List Reply × Db :=
  match openError with
  | some error => (batch.map (fun _ => .error error), db)
  | none =>
    let (replies, written) := run batch db
    (replies.map (finalizeCommittedReply commitError), if commitError.isSome then db else written)

def processBatch (world : World) (openError commitError : Option AtmError) (batch : List QueuedWrite)
    (db : Db) : List Reply × Db :=
  inTransaction openError commitError batch
    (runGrouped isBatchableMessageAdmission (fun queued => execute world queued.ambient queued.op)
      (processQueuedWrite world) committedReply []) db

/-- The abstract writer: each operation in a savepoint of its own, in submission order. -/
def processInOrder (world : World) (openError commitError : Option AtmError) (batch : List QueuedWrite)
    (db : Db) : List Reply × Db :=
  inTransaction openError commitError batch (runSingly (processQueuedWrite world)) db

variable {world : World} {db : Db} {batch : List QueuedWrite} {openError commitError : Option AtmError}

theorem processQueuedWrite_of_execute {queued : QueuedWrite} {result : WriteOpResult} {written : Db}
    (h : execute world queued.ambient queued.op db = .ok (result, written)) :
    processQueuedWrite world queued db = (committedReply result, written) := by
  rw [processQueuedWrite, h]

theorem processBatch_eq_processInOrder : processBatch world openError commitError batch db =
      processInOrder world openError commitError batch db := by
  unfold processBatch processInOrder
  congr 1
  funext ops s
  rw [runGrouped_eq_runSingly isBatchableMessageAdmission
    (fun queued s res s' h => processQueuedWrite_of_execute h)]
  rfl

/-- What a batch leaves, if its transaction is opened and committed. -/
theorem processBatch_snd : (processBatch world openError commitError batch db).2 =
      if openError = none ∧ commitError = none then (runSingly (processQueuedWrite world) batch db).2 else db := by
  rw [processBatch_eq_processInOrder]
  cases openError <;> cases commitError <;> rfl

theorem processBatch_keeps {P : Db → Prop} (openError commitError : Option AtmError)
    (hwrite : ∀ queued ∈ batch, ∀ db, P db → P (processQueuedWrite world queued db).2) (h : P db) :
    P (processBatch world openError commitError batch db).2 := by
  rw [processBatch_snd]
  split
  · exact runSingly_keeps hwrite h
  · exact h

/-- A batch leaves the database and gives the replies of its operations run one after another, and a
failed commit turns every reply into an error, which carries no task events. -/
theorem processBatch_refines_processInOrder (world : World) (openError commitError : Option AtmError)
    (batch : List QueuedWrite) (db : Db) : processBatch world openError commitError batch db =
        processInOrder world openError commitError batch db ∧
      (commitError.isSome → ∀ reply ∈ (processBatch world openError commitError batch db).1,
        ∃ error, reply = .error error) := by
  refine ⟨processBatch_eq_processInOrder, ?_⟩
  intro hcommit reply hreply
  obtain ⟨error, rfl⟩ := Option.isSome_iff_exists.mp hcommit
  cases openError with
  | some failed =>
    obtain ⟨_, _, rfl⟩ := List.mem_map.mp hreply
    exact ⟨failed, rfl⟩
  | none =>
    obtain ⟨result, _, rfl⟩ := List.mem_map.mp hreply
    rcases result with existing | ⟨refusal | result, events⟩
    · exact ⟨existing, rfl⟩
    · exact ⟨refusal, rfl⟩
    · exact ⟨error, rfl⟩

/-- However a queue is cut into batches, they leave what the writes of those that were committed leave one by one. -/
theorem batches_compose (world : World) (batches : List (Option AtmError × Option AtmError × List QueuedWrite))
    (db : Db) : batches.foldl (fun db batch => (processBatch world batch.1 batch.2.1 batch.2.2 db).2) db =
      (runSingly (processQueuedWrite world)
        ((batches.filter (fun batch => batch.1.isNone && batch.2.1.isNone)).flatMap (·.2.2)) db).2 := by
  induction batches generalizing db with
  | nil => rfl
  | cons batch batches ih =>
    obtain ⟨openError, commitError, writes⟩ := batch
    rw [List.foldl_cons, ih, processBatch_snd]
    cases openError <;> cases commitError <;> simp [runSingly_append]

/-- `move_task_with_origin`: a peer never reaches the writer. -/
def moveTaskWithOrigin (world : World) (ambient : Ambient) (team : TeamName) (taskId : TaskId)
    (actor : AgentName) (target : MoveTarget) (instant : IsoTimestamp) (origin : MessageWriteOrigin)
    (db : Db) : Reply × Db :=
  match origin with
  | .peer => (.error (.validation "peer provenance cannot move local tasks"), db)
  | origin =>
    processQueuedWrite world ⟨.taskMove team taskId actor target instant origin, ambient⟩ db

end AtmCore
