import AtmCore.LedgerWrites
import Mathlib.Logic.Relation

/-! What the writer does to the mail. Whatever an operation is for, it changes the message table and the state table by
a few kinds of acts, and goes along a path of them. A guard on the acts that holds along the paths of all operations of
a run carries over what it protects to every state of the run. -/

namespace AtmCore

open Rows Fallible Relation List

/-- An open task of the mailbox was assigned by this message: `t.assignment_message_id = m.message_id` for a task in
state `assigned` or `active`. -/
def assignsOpenTask (tasks : TaskTable) (row : MailRow) : Bool :=
  tasks.rows.any (fun task => decide (task.team = row.team) && decide (task.assignee = row.agent) &&
    decide (row.messageId = some task.assignmentMessageId) &&
    (decide (task.state = .assigned) || decide (task.state = .active)))

/-- Before assignments had no acknowledgement of their own, they were stored as owing one; every opening of the database
clears this: `UPDATE mail_message_states SET pending_ack_at = NULL, … WHERE acknowledged_at IS NULL AND …`. -/
def normalizeLegacyAssignmentMarkers (db : Db) : Db :=
  { db with
    messageStates := db.messageStates.mapRows
      (fun state =>
        if state.acknowledgedAt.isNone && (db.mailMessages.find? state.key).any (assignsOpenTask db.tasks) then
          { state with
            pendingAckAt := none
            nudgePendingAt := none
            nudgeAttempts := 0 }
        else state)
      (fun state => by split <;> rfl) }

/-- The mail of a report that is kept outside of its task. -/
def Message.unlinked (record : Message) : Message :=
  { record with envelope := { record.envelope with
    taskId := none
    taskOp := none
    taskComplete := none
    placement := none } }

/-- What is kept of a message: all of it, or the mail without its task link. -/
def Message.kept (record : Message) (linked : Bool) : Message := if linked then record else record.unlinked

/-- The row of a message that is kept with or without its task link. -/
def MailRow.keeping (row : MailRow) (record : Message) (linked : Bool) : MailRow :=
  { row with envelopeJson := .new (record.kept linked).envelope }

inductive MailAct where
  | store (record : Message) (linked : Bool)
  | restate (record : Message)
  | acknowledge (source : Message) (instant : IsoTimestamp)
  | decompose (message : DecomposedMessageRecord)
  | read (key : MailKey)
  | delete (key : MessageKey)
  | reopen

structure SameMail (db db' : Db) : Prop where
  messages : db'.mailMessages = db.mailMessages
  states : db'.messageStates = db.messageStates

theorem SameMail.refl (db : Db) : SameMail db db := ⟨rfl, rfl⟩

/-- What an act does. The rest of the database is free. -/
inductive MailAct.Does (world : World) (db db' : Db) : MailAct → Prop where
  | store {record : Message} {linked : Bool} (recordedAt : IsoTimestamp) (row : MailRow)
      (hfresh : db.mailMessages.find? record.mailKey = none)
      (hrow : prepareMessageRow world record recordedAt = .ok row)
      (hconflict : mailConflict db.mailMessages row = none)
      (hmail : db'.mailMessages.rows = db.mailMessages.rows ++ [row.keeping record linked])
      (hstates : db'.messageStates = upsertMessageState db.messageStates record recordedAt) :
      Does world db db' (.store record linked)
  | restate {record : Message} (updatedAt : IsoTimestamp) (stored : MailRow)
      (hstored : db.mailMessages.find? record.mailKey = some stored) (hmail : db'.mailMessages = db.mailMessages)
      (hstates : db'.messageStates = upsertMessageState db.messageStates record updatedAt) :
      Does world db db' (.restate record)
  | acknowledge {source : Message} {instant : IsoTimestamp} (requested : Message) (updatedAt : IsoTimestamp)
      (hload : loadExistingMessage requested db = .ok source) (hpending : source.envelope.acknowledgedAt = none)
      (hmail : db'.mailMessages = db.mailMessages)
      (hstates : db'.messageStates =
        upsertMessageState db.messageStates (markSourceAcknowledged source instant) updatedAt) :
      Does world db db' (.acknowledge source instant)
  | decompose {message : DecomposedMessageRecord}
      (hmail : db'.mailMessages = db.mailMessages.mapRows (decomposeRow message) (decomposeRow_key message))
      (hstates : db'.messageStates = db.messageStates) :
      Does world db db' (.decompose message)
  | read {key : MailKey} (updatedAt nextDue : IsoTimestamp) (hmail : db'.mailMessages = db.mailMessages)
      (hstates : db'.messageStates = markMessageRead db.messageStates key updatedAt nextDue) :
      Does world db db' (.read key)
  | delete {key : MessageKey}
      (hmail : db'.mailMessages = db.mailMessages.filterRows (fun row => decide (row.messageKey ≠ key)))
      (hstates : db'.messageStates = db.messageStates.filterRows (fun row => decide (row.messageKey ≠ key))) :
      Does world db db' (.delete key)
  | reopen (hmail : db'.mailMessages = db.mailMessages)
      (hstates : db'.messageStates = (normalizeLegacyAssignmentMarkers db).messageStates) : Does world db db' .reopen

abbrev MailGuard := MailAct → Db → Prop

/-- A change of the mail tables that a guard lets pass, or a change beside them. -/
inductive MailStep (world : World) (guard : MailGuard) (db db' : Db) : Prop where
  | same (h : SameMail db db')
  | act (act : MailAct) (hguard : guard act db) (h : act.Does world db db')

/-- A path of acts that all meet a guard. -/
def MailPath (world : World) (guard : MailGuard) : Db → Db → Prop := ReflTransGen (MailStep world guard)

namespace MailPath

variable {world : World} {guard : MailGuard} {db db₁ db' : Db}

theorem refl (db : Db) : MailPath world guard db db := ReflTransGen.refl

theorem trans (h : MailPath world guard db db₁) (h' : MailPath world guard db₁ db') : MailPath world guard db db' :=
  ReflTransGen.trans h h'

theorem same (h : SameMail db db') : MailPath world guard db db' := ReflTransGen.single (.same h)

theorem single (act : MailAct) (hguard : guard act db) (h : act.Does world db db') : MailPath world guard db db' :=
  ReflTransGen.single (.act act hguard h)

theorem keeps {P : Db → Prop} (hsame : ∀ db db', SameMail db db' → P db → P db')
    (hact : ∀ act db db', guard act db → MailAct.Does world db db' act → P db → P db')
    (h : MailPath world guard db db') (hP : P db) : P db' := by
  induction h with
  | refl => exact hP
  | tail _ hstep ih =>
    cases hstep with
    | same h => exact hsame _ _ h ih
    | act act hguard h => exact hact act _ _ hguard h ih

end MailPath

variable {recordedAt : IsoTimestamp} {ambient : Ambient} {queued : QueuedWrite}

section Admissions

variable {world : World} {guard : MailGuard} {record : Message} {db db' : Db} {row : MailRow}

/-- The guard lets the admission of a message pass: as a new message, kept with or without its task link, or as one
that is stored. -/
structure Message.Meets (record : Message) (guard : MailGuard) (db : Db) : Prop where
  fresh : db.mailMessages.find? record.mailKey = none → ∀ linked, guard (.store record linked) db
  stored : ∀ stored, db.mailMessages.find? record.mailKey = some stored → guard (.restate record) db

/-- The guard lets everything pass that an admission does beside its own message. -/
structure MailGuard.Beside (guard : MailGuard) : Prop where
  notice : ∀ record taskId oldAssignee id db, guard (.store (reassignNotice record taskId oldAssignee id) true) db
  acknowledge : ∀ source instant db, guard (.acknowledge source instant) db
  decompose : ∀ message db, guard (.decompose message) db

theorem InsertsMessage.does (h : InsertsMessage world record recordedAt db db') :
    MailAct.Does world db db' (.store record true) := by
  obtain ⟨row, hrow, hconf, hrows⟩ := h.row
  refine .store recordedAt row h.fresh hrow hconf ?_ h.states
  obtain ⟨-, classification, -, rfl⟩ := prepareMessageRow_eq_ok hrow
  exact hrows

theorem dropTaskLinkFromMail_rows {written : Db} (hfr : db.mailMessages.find? record.mailKey = none)
    (hkey : row.key = record.mailKey) (hrows : written.mailMessages.rows = db.mailMessages.rows ++ [row]) :
    (dropTaskLinkFromMail record written).mailMessages.rows = db.mailMessages.rows ++
      [row.keeping record false] := by
  unfold dropTaskLinkFromMail
  rw [Table.mapRows_rows, hrows, map_append, map_singleton, if_pos hkey]
  congr 1
  refine (map_congr_left (fun stored hst => ?_)).trans (List.map_id' _)
  exact if_neg ((Table.find?_eq_none_iff _).mp hfr stored hst)

theorem InsertsMessage.does_unlinked {stored : Db} (h : InsertsMessage world record recordedAt db stored)
    (hmail : db'.mailMessages = (dropTaskLinkFromMail record stored).mailMessages)
    (hstates : db'.messageStates = stored.messageStates) : MailAct.Does world db db' (.store record false) := by
  obtain ⟨row, hrow, hconf, hrows⟩ := h.row
  refine .store recordedAt row h.fresh hrow hconf ?_ (hstates.trans h.states)
  rw [hmail]
  exact dropTaskLinkFromMail_rows h.fresh (prepareMessageRow_key hrow) hrows

theorem TaskMail.path {stored : Db} (hbeside : guard.Beside) (hguard : ∀ linked, guard (.store record linked) db)
    (hins : InsertsMessage world record recordedAt db stored)
    (htask : TaskMail world ambient record stored db') : MailPath world guard db db' := by
  have hst : MailPath world guard db stored := .single _ (hguard true) hins.does
  cases htask with
  | untouched hmail hstates => exact hst.trans (.same ⟨hmail, hstates⟩)
  | noticed taskId oldAssignee hnotice =>
    exact hst.trans (.single _ (hbeside.notice record taskId oldAssignee _ stored) hnotice.does)
  | unlinked hdrop hmail hstates => exact .single _ (hguard false) (hins.does_unlinked hmail hstates)
  | acknowledged requested source hload hpend hmail hstates =>
    exact hst.trans (.single _ (hbeside.acknowledge source _ stored)
      (.acknowledge requested _ hload hpend hmail hstates))

theorem Admitted.path {result : UpsertResult} (hbeside : guard.Beside) (hmeets : record.Meets guard db)
    (h : Admitted world ambient record db result db') : MailPath world guard db db' := by
  cases h with
  | present existing hex hres hmail hstates =>
    obtain ⟨-, stored, hst⟩ := loadExistingMessage_eq_ok hex
    rw [hmail] at hst
    exact .single _ (hmeets.stored stored hst) (.restate _ stored hst hmail hstates)
  | inserted stored hins htasks htask hres => exact htask.path hbeside (hmeets.fresh hins.fresh) hins

theorem upsertMessage_path (hbeside : guard.Beside) {provenance : MessageWriteOrigin} (hmeets : record.Meets guard db) :
    Returns (fun result => MailPath world guard db result.2) (upsertMessage world ambient record provenance db) :=
  (upsertMessage_admitted world ambient record provenance db).mono (fun _ h => h.path hbeside hmeets)

end Admissions

section Operations

variable {world : World} {guard : MailGuard} {db db' : Db}

theorem Decomposes.path {message : DecomposedMessageRecord} (h : Decomposes message db db') (world : World)
    (hbeside : guard.Beside) : MailPath world guard db db' := by
  obtain ⟨templates, documents, rfl | ⟨search, rfl⟩⟩ := h
  · exact .same ⟨rfl, rfl⟩
  · exact .single _ (hbeside.decompose message db) (.decompose rfl rfl)

theorem executeAdmitTemplateMessage_path (hbeside : guard.Beside) {admission : TemplateMessageAdmission}
    (hmeets : admission.record.Meets guard db) : Returns (fun result => MailPath world guard db result.2)
      (executeAdmitTemplateMessage world ambient admission db) := by
  refine (executeAdmitTemplateMessage_does).mono ?_
  rintro ⟨_, db'⟩ ⟨result, written, hrun, hrest⟩
  have hpath := (upsertMessage_path hbeside hmeets).of_eq_ok hrun
  rcases hrest with rfl | hrest
  · exact hpath
  · exact hpath.trans (hrest.path world hbeside)

/-- The guard lets pass whatever an operation does beside the messages it is given, the keys it deletes and those it
marks read. -/
structure MailGuard.Answers (guard : MailGuard) : Prop extends guard.Beside where
  acknowledged : ∀ source instant db stored, db.mailMessages.find? source.mailKey = some stored →
    guard (.restate (markSourceAcknowledged source instant)) db

/-- The guard lets pass whatever an operation does beside the messages it is given and the keys it deletes. -/
structure MailGuard.Open (guard : MailGuard) : Prop extends guard.Beside where
  read : ∀ key db, guard (.read key) db
  acknowledged : ∀ source instant db stored, db.mailMessages.find? source.mailKey = some stored →
    guard (.restate (markSourceAcknowledged source instant)) db

theorem MailGuard.Open.answers (h : guard.Open) : guard.Answers := ⟨h.toBeside, h.acknowledged⟩

/-- The guard lets the messages pass that an operation marks read. -/
def QueuedWrite.Reads (guard : MailGuard) (queued : QueuedWrite) : Prop :=
  match queued.op with
  | .applyReadDisplayState mailbox messageIds _ _ =>
    ∀ key ∈ messageIds, ∀ db, guard (.read (mailbox.team, mailbox.agent, key)) db
  | _ => True

theorem MailGuard.Open.reads (h : guard.Open) (queued : QueuedWrite) : queued.Reads guard := by
  rw [QueuedWrite.Reads]
  split
  · exact fun key _ db => h.read _ db
  · trivial

/-- The messages of a bulk write, each in the state it meets. -/
def MeetsAll (world : World) (guard : MailGuard) : Ambient → List Message → Db → Prop
  | _, [], _ => True
  | ambient, record :: records, db =>
    record.Meets guard db ∧ ∀ result db', upsertMessage world ambient record .local db = .ok (result, db') →
      MeetsAll world guard (ambient.from admissionReadings) records db'

/-- The guard lets the messages of an operation and its deletion pass. -/
def QueuedWrite.Meets (world : World) (guard : MailGuard) (queued : QueuedWrite) (db : Db) : Prop :=
  match queued.op with
  | .upsertMessage record _ => record.Meets guard db
  | .upsertMessages records => MeetsAll world guard queued.ambient records db
  | .acknowledge source builder _ => ∀ loaded reply, loadPendingAckSource source db = .ok loaded →
      builder.buildReply loaded = .ok reply → reply.Meets guard db
  | .admitTemplateMessage admission => admission.record.Meets guard db
  | .deleteMessage key _ => guard (.delete key) db
  | _ => True

theorem executeUpsertMessages_path (hbeside : guard.Beside) {records : List Message} :
    ∀ (ambient : Ambient) (db : Db), MeetsAll world guard ambient records db →
      Returns (fun db' => MailPath world guard db db') (executeUpsertMessages world ambient records db) := by
  induction records with
  | nil => exact fun ambient db _ => .refl db
  | cons record records ih =>
    rintro ambient db ⟨hmeets, hrest⟩
    rw [executeUpsertMessages]
    refine (upsertMessage_path hbeside hmeets).and_eq.bind ?_
    rintro ⟨result, db₁⟩ ⟨hpath, hrun⟩
    exact (ih _ db₁ (hrest result db₁ hrun)).mono (fun db₂ htail => hpath.trans htail)

theorem markMessagesRead_path {mailbox : MailboxScope} {updatedAt nextDue : IsoTimestamp}
    {keys : List MessageKey} (hread : ∀ key ∈ keys, ∀ db, guard (.read (mailbox.team, mailbox.agent, key)) db) :
    ∀ (db : Db) (states : Table MessageStateRow.key),
      markMessagesRead mailbox updatedAt nextDue keys db.messageStates = .ok states →
      MailPath world guard db { db with messageStates := states } := by
  induction keys with
  | nil =>
    intro db states h
    cases h
    exact .refl db
  | cons key keys ih =>
    intro db states h
    rw [markMessagesRead] at h
    split at h
    · have hfirst : MailPath world guard db { db with
          messageStates := markMessageRead db.messageStates (mailbox.team, mailbox.agent, key) updatedAt nextDue } :=
        .single _ (hread key mem_cons_self db) (.read updatedAt nextDue rfl rfl)
      exact hfirst.trans (ih (fun key hkey => hread key (mem_cons_of_mem _ hkey)) _ states h)
    · cases h

/-- Every operation of the writer goes along a path that the guard lets pass. -/
theorem MailGuard.Answers.execute_path (hopen : guard.Answers) (hreads : queued.Reads guard)
    (hmeets : queued.Meets world guard db) :
    Returns (fun result => MailPath world guard db result.2) (execute world queued.ambient queued.op db) := by
  obtain ⟨op, ambient⟩ := queued
  refine (execute_does).mono (fun result h => ?_)
  obtain ⟨result, db'⟩ := result
  have hup : ∀ {ambient record provenance result written} {db : Db}, record.Meets guard db →
      upsertMessage world ambient record provenance db = .ok (result, written) → MailPath world guard db written :=
    fun hmeets hrun => (upsertMessage_path hopen.toBeside hmeets).of_eq_ok hrun
  cases op with
  | applyReadDisplayState mailbox messageIds seenWatermark provenance =>
    obtain ⟨states, watermarks, hstates, rfl⟩ := h
    exact (markMessagesRead_path hreads db states hstates).trans (.same ⟨rfl, rfl⟩)
  | deleteMessage key provenance =>
    obtain rfl := h
    exact .single _ hmeets (.delete rfl rfl)
  | upsertMessage record provenance =>
    obtain ⟨result, hrun⟩ := h
    exact hup hmeets hrun
  | upsertMessages records =>
    exact (executeUpsertMessages_path hopen.toBeside ambient db hmeets).of_eq_ok h
  | acknowledge source builder provenance =>
    obtain ⟨loaded, reply, first, written, second, hload, hreply, hfirst, hsecond⟩ := h
    obtain ⟨row, hrow, -⟩ := (loadPendingAckSource_plain).of_eq_ok hload
    obtain ⟨stored, hst⟩ := Option.isSome_iff_exists.mp
      (((upsertMessage_grows world _ reply .local db).of_eq_ok hfirst).stored loaded.mailKey
        (Option.isSome_iff_exists.mpr ⟨row, hrow⟩))
    have hsrc : (markSourceAcknowledged loaded (ambient.clock 0)).Meets guard written := by
      refine ⟨fun hfr => ?_, fun _ _ => hopen.acknowledged loaded _ written stored hst⟩
      cases hfr.symm.trans hst
    exact (hup (hmeets loaded reply hload hreply) hfirst).trans (hup hsrc hsecond)
  | taskMove team taskId actor target instant provenance =>
    obtain ⟨record, hrun⟩ := h
    obtain ⟨tasks, events, rfl⟩ := (applyTaskMove_eq).of_eq_ok hrun
    exact .same ⟨rfl, rfl⟩
  | registerTemplate request =>
    obtain ⟨templates, documents, rfl⟩ := h
    exact .same ⟨rfl, rfl⟩
  | admitDecomposedMessage admission => exact Decomposes.path h world hopen.toBeside
  | admitTemplateMessage admission =>
    obtain ⟨result, written, hrun, rfl | hrest⟩ := h
    · exact hup hmeets hrun
    · exact (hup hmeets hrun).trans (hrest.path world hopen.toBeside)
  | recordDiagnostics events | pruneDiagnostics =>
    obtain ⟨events, rfl⟩ := h
    exact .same ⟨rfl, rfl⟩

theorem processQueuedWrite_sameMail_of_error {fault : Fault}
    (hrun : execute world queued.ambient queued.op db = .error fault) :
    SameMail db (processQueuedWrite world queued db).2 := by
  rw [processQueuedWrite, hrun]
  cases fault with
  | panic => exact .refl db
  | err error =>
    dsimp only
    cases haudit : appendRejectedTaskEvent queued.ambient queued.op error db with
    | ok result =>
      obtain ⟨events, heq⟩ := (appendRejectedTaskEvent_eq queued.ambient queued.op error).of_eq_ok haudit
      exact heq ▸ ⟨rfl, rfl⟩
    | error fault => cases fault <;> exact .refl db

theorem processQueuedWrite_path_of_returns
    (h : Returns (fun result => MailPath world guard db result.2) (execute world queued.ambient queued.op db)) :
    MailPath world guard db (processQueuedWrite world queued db).2 := by
  cases hrun : execute world queued.ambient queued.op db with
  | ok result =>
    obtain ⟨result, written⟩ := result
    rw [processQueuedWrite_of_execute hrun]
    exact h.of_eq_ok hrun
  | error fault => exact .same (processQueuedWrite_sameMail_of_error hrun)

theorem MailGuard.Answers.processQueuedWrite_path (hopen : guard.Answers) (hreads : queued.Reads guard)
    (hmeets : queued.Meets world guard db) : MailPath world guard db (processQueuedWrite world queued db).2 :=
  processQueuedWrite_path_of_returns (hopen.execute_path hreads hmeets)

end Operations

end AtmCore
