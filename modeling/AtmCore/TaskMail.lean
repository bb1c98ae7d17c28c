import AtmCore.AssignmentLinks
import AtmCore.WriterBatch

/-! What an admission writes. Beside the row and the state of its own message, an operation on a task can store the
notice to the former assignee, drop the task link of its message, or acknowledge the assignment of the task it closes.
No admission touches the roster or the tables of the cron store, and none takes a message away. -/

namespace AtmCore

open Rows Fallible Option

structure SameCron (db db' : Db) : Prop where
  schedules : db'.cronSchedules = db.cronSchedules
  events : db'.cronEvents = db.cronEvents
  intents : db'.cronIntents = db.cronIntents

theorem SameCron.refl (db : Db) : SameCron db db := ⟨rfl, rfl, rfl⟩

variable {db db' db'' : Db} {world : World} {record : Message} {recordedAt : IsoTimestamp}
  {upsert : Message → Db → Outcome Db}

theorem SameCron.trans (h : SameCron db db') (h' : SameCron db' db'') : SameCron db db'' :=
  ⟨h'.schedules.trans h.schedules, h'.events.trans h.events, h'.intents.trans h.intents⟩

/-- The roster is the same, too. -/
structure SameBeside (db db' : Db) : Prop extends SameCron db db' where
  roster : db'.teamRoster = db.teamRoster

theorem SameBeside.refl (db : Db) : SameBeside db db := ⟨.refl db, rfl⟩

theorem SameBeside.trans (h : SameBeside db db') (h' : SameBeside db' db'') : SameBeside db db'' :=
  ⟨h.toSameCron.trans h'.toSameCron, h'.roster.trans h.roster⟩

/-- Every stored key is still stored, and nothing beside mail and ledger changed. -/
structure Grows (db db' : Db) : Prop extends SameBeside db db' where
  stored : ∀ key, (db.mailMessages.find? key).isSome = true → (db'.mailMessages.find? key).isSome = true

theorem Grows.of_mail_eq (hmail : db'.mailMessages = db.mailMessages) (h : SameBeside db db') : Grows db db' :=
  ⟨h, fun key hkey => by rw [hmail]; exact hkey⟩

theorem Grows.trans (h : Grows db db') (h' : Grows db' db'') : Grows db db'' :=
  ⟨h.toSameBeside.trans h'.toSameBeside, fun key hkey => h'.stored key (h.stored key hkey)⟩

/-- A message of a new key is stored, with the state it comes with. -/
structure InsertsMessage (world : World) (record : Message) (recordedAt : IsoTimestamp) (db db' : Db) : Prop where
  fresh : db.mailMessages.find? record.mailKey = none
  row : ∃ row, prepareMessageRow world record recordedAt = .ok row ∧ mailConflict db.mailMessages row = none ∧
    db'.mailMessages.rows = db.mailMessages.rows ++ [row]
  states : db'.messageStates = upsertMessageState db.messageStates record recordedAt

/-- A message that closes a task finds it open, and comes from a party to it to the other one. -/
def Message.closesTask (record : Message) (tasks : TaskTable) : Bool :=
  match record.envelope.taskId, record.envelope.taskOp with
  | some taskId, some (.close outcome _) =>
    match loadTaskRow tasks record.team taskId with
    | .ok (some row) =>
      match row.state with
      | .complete _ => false
      | _ => (admitTask (some row) (.completed outcome) taskId record.envelope.from).isOk &&
          decide (record.agent = closeCounterparty record row)
    | _ => true
  | _, _ => true

/-- The mail tables after a task operation of a message that was stored before it. -/
inductive TaskMail (world : World) (ambient : Ambient) (record : Message) (db db' : Db) : Prop where
  | untouched (hmail : db'.mailMessages = db.mailMessages) (hstates : db'.messageStates = db.messageStates)
  | noticed (taskId : TaskId) (oldAssignee : AgentName)
      (hinsert : InsertsMessage world (reassignNotice record taskId oldAssignee (ambient.fresh 1))
        (ambient.clock 2) db db')
  | unlinked (hdropped : record.closesTask db.tasks = false)
      (hmail : db'.mailMessages = (dropTaskLinkFromMail record db).mailMessages)
      (hstates : db'.messageStates = db.messageStates)
  | acknowledged (requested source : Message) (hload : loadExistingMessage requested db = .ok source)
      (hpending : source.envelope.acknowledgedAt = none) (hmail : db'.mailMessages = db.mailMessages)
      (hstates : db'.messageStates = upsertMessageState db.messageStates
        (markSourceAcknowledged source record.envelope.timestamp) (ambient.clock 4))

theorem insertMessageCanonical_inserts (h : insertMessageCanonical world record recordedAt db = .ok (true, db')) :
    InsertsMessage world record recordedAt db db' := by
  obtain ⟨row, mail, hrow, hfr, hconf, hrows, rfl⟩ := insertMessageCanonical_eq_true h
  exact ⟨hfr, ⟨row, hrow, hconf, hrows⟩, rfl⟩

theorem InsertsMessage.of_mail_eq {db₁ db₂ : Db} (h : InsertsMessage world record recordedAt db₁ db₂)
    (hmail : db₁.mailMessages = db.mailMessages) (hstates : db₁.messageStates = db.messageStates)
    (hmail' : db'.mailMessages = db₂.mailMessages) (hstates' : db'.messageStates = db₂.messageStates) :
    InsertsMessage world record recordedAt db db' := by
  obtain ⟨row, hrow, hconf, hrows⟩ := h.row
  rw [hmail] at hconf hrows
  refine ⟨hmail ▸ h.fresh, ⟨row, hrow, hconf, hmail' ▸ hrows⟩, ?_⟩
  rw [hstates', h.states, hstates]

theorem InsertsMessage.stored (h : InsertsMessage world record recordedAt db db') (key : MailKey)
    (hkey : (db.mailMessages.find? key).isSome = true) : (db'.mailMessages.find? key).isSome = true := by
  obtain ⟨row, -, -, hrows⟩ := h.row
  rw [Table.find?_of_rows_append hrows]
  split
  · rfl
  · exact hkey

theorem TaskMail.stored {ambient : Ambient} (h : TaskMail world ambient record db db') (key : MailKey)
    (hkey : (db.mailMessages.find? key).isSome = true) : (db'.mailMessages.find? key).isSome = true := by
  cases h with
  | untouched hmail | acknowledged requested source hload hpend hmail => rw [hmail]; exact hkey
  | noticed taskId oldAssignee hins => exact hins.stored key hkey
  | unlinked hdrop hmail hstates =>
    rw [hmail, dropTaskLinkFromMail, Table.find?_mapRows, isSome_map]
    exact hkey

/-- The messages that a task may link to once the message is through. -/
def Message.MayLink (record : Message) (tasks : TaskTable) (id : AtmMessageId) : Prop :=
  record.envelope.messageId = some id ∨ ∃ row ∈ tasks.rows, row.assignmentMessageId = id

theorem linkedTo_mayLink (record : Message) (tasks : TaskTable) : LinkedTo (record.MayLink tasks) tasks :=
  fun row hrow => .inr ⟨row, hrow, rfl⟩

/-- What a task operation of a stored message writes. -/
structure TaskWrite (world : World) (ambient : Ambient) (record : Message) (db db' : Db) : Prop
    extends SameBeside db db' where
  mail : TaskMail world ambient record db db'
  links : LinkedTo (record.MayLink db.tasks) db'.tasks

section Tasks

variable {world : World} {ambient : Ambient} {record : Message} {db db' : Db} {taskId : TaskId}

theorem TaskWrite.refl : TaskWrite world ambient record db db :=
  ⟨.refl db, .untouched rfl rfl, linkedTo_mayLink record db.tasks⟩

theorem TaskWrite.with_tasks (h : TaskWrite world ambient record db db') {tasks : TaskTable}
    {events : List TaskEventColumns} (htasks : LinkedTo (record.MayLink db.tasks) tasks) :
    TaskWrite world ambient record db { db' with tasks := tasks, taskEvents := events } := by
  refine ⟨⟨⟨h.schedules, h.events, h.intents⟩, h.roster⟩, ?_, htasks⟩
  cases h.mail with
  | untouched hmail hstates => exact .untouched hmail hstates
  | noticed task old hins => exact .noticed task old (hins.of_mail_eq rfl rfl rfl rfl)
  | unlinked hdrop hmail hstates => exact .unlinked hdrop hmail hstates
  | acknowledged requested source hload hpend hmail hstates =>
    exact .acknowledged requested source hload hpend hmail hstates

theorem insertReassignNotice_inserts {oldAssignee : AgentName} :
    Returns (fun result => InsertsMessage world (reassignNotice record taskId oldAssignee (ambient.fresh 1))
        (ambient.clock 2) db result.2 ∧ SameBeside db result.2 ∧ result.2.tasks = db.tasks)
      (insertReassignNotice world ambient record taskId oldAssignee db) := by
  refine (returns_any _).and_eq.bind ?_
  rintro ⟨inserted, written⟩ ⟨-, hins⟩
  cases inserted with
  | false => trivial
  | true =>
    refine ⟨insertMessageCanonical_inserts hins, ?_⟩
    obtain ⟨row, mail, -, -, -, -, rfl⟩ := insertMessageCanonical_eq_true hins
    exact ⟨⟨⟨rfl, rfl, rfl⟩, rfl⟩, rfl⟩

theorem applyTaskAssignment_writes (taskId : TaskId) (placement : Option MoveTarget) :
    Returns (fun result => TaskWrite world ambient record db result.2)
      (applyTaskAssignment world ambient record taskId placement db) := by
  have hlink := linkedTo_mayLink record db.tasks
  refine .skip (fun row => .skip (fun nextState => ?_))
  split
  · trivial
  next messageId hmsg =>
  have hid : record.MayLink db.tasks messageId := .inl hmsg
  refine (refreshSameAssignment_linked hlink hid).bind (fun refreshed hrefreshed => ?_)
  split
  · exact TaskWrite.refl.with_tasks (hrefreshed _ rfl)
  refine Ensures.bind (P := fun result => ∃ tasks events,
    result.2.2 = { db with tasks := tasks, taskEvents := events } ∧ LinkedTo (record.MayLink db.tasks) tasks) ?_ ?_
  · unfold persistTaskAssignment
    refine (assignQueues_linked hlink hid).bind ?_
    rintro ⟨ids, tasks⟩ htasks
    exact .skip (fun position => .skip (fun events => ⟨_, _, rfl, htasks⟩))
  rintro ⟨ids, events, assigned⟩ ⟨tasks, rows, rfl, htasks⟩
  refine .skip (fun position => ?_)
  split
  · exact TaskWrite.refl.with_tasks htasks
  next old _ =>
  refine (insertReassignNotice_inserts).bind ?_
  rintro ⟨notice, written⟩ ⟨hinserts, hbeside, hsame⟩
  exact ⟨⟨⟨hbeside.schedules, hbeside.events, hbeside.intents⟩, hbeside.roster⟩,
    .noticed taskId old.assignee (hinserts.of_mail_eq rfl rfl rfl rfl), hsame ▸ htasks⟩

theorem applyTaskStart_writes :
    Returns (fun result => TaskWrite world ambient record db result.2.2) (applyTaskStart ambient record taskId db) := by
  refine .skip (fun row => ?_)
  split
  · trivial
  · refine .skip (fun nextState => .skip (fun active => ?_))
    refine (startQueue_linked (linkedTo_mayLink record db.tasks)).bind (fun tasks htasks => ?_)
    exact .skip (fun event => TaskWrite.refl.with_tasks htasks)

/-- The nested admission of a close writes the state of a message that is stored, and nothing else. -/
def RestatesStored (upsert : Message → Db → Outcome Db) (updatedAt : IsoTimestamp) : Prop :=
  ∀ message db, (db.mailMessages.find? message.mailKey).isSome = true →
    Returns (fun db' => db' = { db with messageStates := upsertMessageState db.messageStates message updatedAt })
      (upsert message db)

theorem executeUpsertMessage_restates :
    RestatesStored (fun message db => (executeUpsertMessage world 0 ambient message .local db).map Prod.snd)
      (ambient.clock 0) := by
  intro message db hst
  obtain ⟨stored, hst⟩ := isSome_iff_exists.mp hst
  simp only [executeUpsertMessage]
  rw [admitMessage_of_present world _ ambient .local hst]
  cases validateCronGenerationFence .local db.cronSchedules with
  | error fault => trivial
  | ok _ =>
    cases prepareMessageRow world message (ambient.clock 0) with
    | error error => trivial
    | ok row =>
      simp only [Outcome.lift, Fallible.bind_ok]
      cases loadExistingMessage message
          { db with messageStates := upsertMessageState db.messageStates message (ambient.clock 0) } with
      | error fault => trivial
      | ok existing => exact rfl

variable (hup : RestatesStored upsert (ambient.clock 4))
include hup

theorem acknowledgeAssignment_writes (world : World) (row : TaskRow) :
    Returns (fun written => TaskWrite world ambient record db written)
      (acknowledgeAssignment upsert record row db) := by
  unfold acknowledgeAssignment
  split
  · exact .refl
  refine (returns_any _).and_eq.bind ?_
  rintro source ⟨-, hload⟩
  split
  · next hpend =>
    obtain ⟨hkey, stored, hst⟩ := loadExistingMessage_eq_ok hload
    rw [← hkey] at hst
    refine (hup (markSourceAcknowledged source record.envelope.timestamp) db
      (isSome_iff_exists.mpr ⟨stored, hst⟩)).mono ?_
    rintro written rfl
    exact ⟨⟨⟨rfl, rfl, rfl⟩, rfl⟩, .acknowledged _ source hload (isNone_iff_eq_none.mp hpend) rfl rfl,
      linkedTo_mayLink record db.tasks⟩
  · exact .refl

theorem applyTaskClose_writes {outcome : TaskCloseOutcome} {reason : Option String}
    (htid : record.envelope.taskId = some taskId) (htaskOp : record.envelope.taskOp = some (.close outcome reason)) :
    Returns (fun result => TaskWrite world ambient record db result.2)
      (applyTaskClose upsert ambient record taskId outcome reason db) := by
  have hunlinked : ∀ events, record.closesTask db.tasks = false →
      TaskWrite world ambient record db { dropTaskLinkFromMail record db with taskEvents := events } :=
    fun events hdrop => ⟨⟨⟨rfl, rfl, rfl⟩, rfl⟩, .unlinked hdrop rfl rfl, linkedTo_mayLink record db.tasks⟩
  have hrejected : ∀ row error, record.closesTask db.tasks = false →
      Returns (fun result => TaskWrite world ambient record db result.2)
        (deliverRejectedCloseReport ambient record taskId row error db) := by
    intro row error hdrop
    exact .skip (fun event => hunlinked _ hdrop)
  refine (returns_any _).and_eq.bind ?_
  rintro row ⟨-, hload⟩
  split
  · trivial
  split
  · next hstate =>
    refine hunlinked _ ?_
    simp only [Message.closesTask, htid, htaskOp, hload, hstate]
  next hopen =>
  split
  · next hadmits =>
    refine hrejected _ _ ?_
    simp only [Message.closesTask, htid, htaskOp, hload, hadmits]
    rfl
  refine .skip (fun nextState => ?_)
  split
  · next hcounterparty =>
    refine hrejected _ _ ?_
    simp only [Message.closesTask, htid, htaskOp, hload, decide_eq_false hcounterparty, Bool.and_false]
  refine Ensures.bind (P := fun result => TaskWrite world ambient record db result.2) ?_ ?_
  · unfold persistTaskClose
    refine (acknowledgeAssignment_writes hup world _).bind (fun written hwr => ?_)
    refine (closeQueue_linked hwr.links).bind (fun tasks htasks => .skip (fun event => hwr.with_tasks htasks))
  · rintro ⟨event, written⟩ hwr
    exact hwr

theorem applyTaskMessage_writes : Returns (fun result => TaskWrite world ambient record db result.2)
      (applyTaskMessage world upsert ambient record db) := by
  unfold applyTaskMessage
  split
  · exact .refl
  next taskId htid =>
  split
  · refine .skip (fun report => ?_)
    cases report with
    | true => exact .refl
    | false =>
      refine (applyTaskAssignment_writes taskId _).bind ?_
      rintro ⟨applied, written⟩ hwr
      exact hwr
  · have hstate : Returns (fun result => TaskWrite world ambient record db result.2.2)
      (applyTaskStart ambient record taskId db) := applyTaskStart_writes
    refine hstate.bind ?_
    rintro ⟨assignee, event, written⟩ hwr
    exact hwr
  · next htaskOp => exact applyTaskClose_writes hup htid htaskOp

end Tasks

/-- What an admission does to the mail and says of the store it found. -/
inductive Admitted (world : World) (ambient : Ambient) (record : Message) (db : Db) (result : UpsertResult)
    (db' : Db) : Prop where
  | present (existing : Message) (hexisting : loadExistingMessage record db' = .ok existing)
      (hresult : result = .plain false (some existing)) (hmail : db'.mailMessages = db.mailMessages)
      (hstates : db'.messageStates = upsertMessageState db.messageStates record (ambient.clock 0))
  | inserted (stored : Db) (hinsert : InsertsMessage world record (ambient.clock 0) db stored)
      (htasks : stored.tasks = db.tasks) (htask : TaskMail world ambient record stored db')
      (hresult : result.inserted = true ∧ result.existing = none)

theorem UpsertResult.ofTask_inserted {result : TaskMessageResult} :
    (UpsertResult.ofTask result).inserted = true ∧ (UpsertResult.ofTask result).existing = none := by
  cases result <;> exact ⟨rfl, rfl⟩

section Admission

variable (world : World) (ambient : Ambient) (record : Message) (provenance : MessageWriteOrigin) (db : Db)

theorem upsertMessage_writes :
    Returns (fun result => Admitted world ambient record db result.1 result.2 ∧ Grows db result.2 ∧
        LinkedTo (record.MayLink db.tasks) result.2.tasks)
      (upsertMessage world ambient record provenance db) := by
  have hlink := linkedTo_mayLink record db.tasks
  refine .skip (fun _ => (returns_any _).and_eq.bind ?_)
  rintro ⟨inserted, stored⟩ ⟨-, hins⟩
  cases inserted with
  | false =>
    obtain ⟨-, rfl⟩ := insertMessageCanonical_eq_false hins
    refine (returns_any _).and_eq.bind ?_
    rintro existing ⟨-, hex⟩
    exact ⟨.present existing hex rfl rfl rfl, .of_mail_eq rfl ⟨⟨rfl, rfl, rfl⟩, rfl⟩, hlink⟩
  | true =>
    have hinserts := insertMessageCanonical_inserts hins
    obtain ⟨htasks, hbeside⟩ : stored.tasks = db.tasks ∧ SameBeside db stored := by
      obtain ⟨row, mail, -, -, -, -, rfl⟩ := insertMessageCanonical_eq_true hins
      exact ⟨rfl, ⟨rfl, rfl, rfl⟩, rfl⟩
    have hgrows : Grows db stored := ⟨hbeside, hinserts.stored⟩
    dsimp only
    split
    · refine (applyTaskMessage_writes (executeUpsertMessage_restates)).bind ?_
      rintro ⟨result, written⟩ hwr
      refine ⟨.inserted stored hinserts htasks hwr.mail (UpsertResult.ofTask_inserted),
        hgrows.trans ⟨hwr.toSameBeside, hwr.mail.stored⟩, ?_⟩
      rw [← htasks]
      exact hwr.links
    · exact ⟨.inserted stored hinserts htasks (.untouched rfl rfl) ⟨rfl, rfl⟩, hgrows, htasks ▸ hlink⟩

theorem upsertMessage_admitted : Returns (fun result => Admitted world ambient record db result.1 result.2)
      (upsertMessage world ambient record provenance db) :=
  (upsertMessage_writes world ambient record provenance db).mono (fun _ h => h.1)

theorem upsertMessage_grows : Returns (fun result => Grows db result.2)
    (upsertMessage world ambient record provenance db) :=
  (upsertMessage_writes world ambient record provenance db).mono (fun _ h => h.2.1)

variable {record db} in
/-- A task that a message creates or assigns again refers to that message. -/
theorem upsertMessage_linked {ids : AtmMessageId → Prop}
    (hid : ∀ id, record.envelope.messageId = some id → ids id) (h : LinkedTo ids db.tasks) :
    Returns (fun result => LinkedTo ids result.2.tasks) (upsertMessage world ambient record provenance db) := by
  refine (upsertMessage_writes world ambient record provenance db).mono (fun result hres row hrow => ?_)
  rcases hres.2.2 row hrow with hlink | ⟨old, hold, hlink⟩
  · exact hid _ hlink
  · exact hlink ▸ h old hold

end Admission

end AtmCore
