import AtmCore.PeerMail
import AtmCore.Redelivery

/-! Local admissions on two stores that are the same locally. The two runs take the same branches, for nothing that an
admission reads of the mail is a message of a peer. So both runs fail with the same error or both return, and then the
stores are the same locally again. -/

namespace AtmCore

open Rows Fallible Lockstep Option Table

/-- Two stores that are the same locally, each with its messages parted into the two kinds. -/
structure Alike (peers : Foreign) (db db' : Db) : Prop extends SameLocally peers db db' where
  parts : peers.Parts db.mailMessages
  parts' : peers.Parts db'.mailMessages

variable {tasks : TaskTable}

section Frames

variable {peers : Foreign} {db db' db'' : Db}

theorem SameLocally.refl (peers : Foreign) (db : Db) : SameLocally peers db db :=
  ⟨rfl, rfl, rfl, rfl, rfl, rfl, rfl, .refl peers _⟩

theorem SameLocally.symm (h : SameLocally peers db db') : SameLocally peers db' db :=
  ⟨h.tasks.symm, h.taskEvents.symm, h.roster.symm, h.schedules.symm, h.events.symm, h.intents.symm, h.mail.symm,
    h.marks.symm⟩

theorem SameLocally.trans (h : SameLocally peers db db') (h' : SameLocally peers db' db'') :
    SameLocally peers db db'' :=
  ⟨h.tasks.trans h'.tasks, h.taskEvents.trans h'.taskEvents, h.roster.trans h'.roster,
    h.schedules.trans h'.schedules, h.events.trans h'.events, h.intents.trans h'.intents, h.mail.trans h'.mail,
    h.marks.trans h'.marks⟩

section

variable (h : Alike peers db db')
include h

theorem Alike.withLedger (taskEvents : List TaskEventColumns) :
    Alike peers { db with tasks := tasks, taskEvents := taskEvents }
      { db' with tasks := tasks, taskEvents := taskEvents } :=
  ⟨⟨rfl, rfl, h.roster, h.schedules, h.events, h.intents, h.mail, h.marks⟩, h.parts, h.parts'⟩

theorem Alike.withTasks : Alike peers { db with tasks := tasks } { db' with tasks := tasks } :=
  ⟨⟨rfl, h.taskEvents, h.roster, h.schedules, h.events, h.intents, h.mail, h.marks⟩, h.parts, h.parts'⟩

/-- The state row of a message is rewritten from the same message. -/
theorem Alike.withState (record : Message) (updatedAt : IsoTimestamp) :
    Alike peers { db with messageStates := upsertMessageState db.messageStates record updatedAt }
      { db' with messageStates := upsertMessageState db'.messageStates record updatedAt } :=
  ⟨⟨h.tasks, h.taskEvents, h.roster, h.schedules, h.events, h.intents, h.mail, h.marks.upsert record updatedAt⟩,
    h.parts, h.parts'⟩

/-- The rows of the mail are rewritten in the same way. -/
theorem Alike.withMail {f : MailRow → MailRow} (hf : ∀ row, (f row).key = row.key)
    (hlinks : ∀ row, (f row).links = row.links) : Alike peers { db with mailMessages := db.mailMessages.mapRows f hf }
      { db' with mailMessages := db'.mailMessages.mapRows f hf } := by
  refine ⟨⟨h.tasks, h.taskEvents, h.roster, h.schedules, h.events, h.intents, ?_, h.marks⟩,
    h.parts.mapRows hf hlinks, h.parts'.mapRows hf hlinks⟩
  rw [peers.localRows_mapRows, peers.localRows_mapRows, h.mail]

end

/-- The row of a local key is the same on both sides. -/
theorem SameLocally.find?_mail (h : SameLocally peers db db') {key : MailKey} (hkey : peers.key key.2.2 = false) :
    db.mailMessages.find? key = db'.mailMessages.find? key := by
  rw [peers.find?_local hkey, peers.find?_local hkey, h.mail]

end Frames

variable {row : MailRow} {ambient : Ambient} {upsert : Message → Db → Outcome Db} {world : World}
  {recordedAt : IsoTimestamp}

section Insertion

variable {peers : Foreign} {db db' : Db} {record : Message}

theorem prepareMessageRow_links
    (h : prepareMessageRow world record recordedAt = .ok row) : row.links = record.links := by
  obtain ⟨-, classification, -, rfl⟩ := prepareMessageRow_eq_ok h
  rfl

/-- The insertion of a local row is decided by the local rows. -/
theorem Alike.insertMessageRow (h : Alike peers db db') (hrow : peers.Outside row.links) :
    Agrees (fun mail mail' => (mail = none ∧ mail' = none) ∨ ∃ t t', mail = some t ∧ mail' = some t' ∧
        t.rows = db.mailMessages.rows ++ [row] ∧ t'.rows = db'.mailMessages.rows ++ [row])
      (AtmCore.insertMessageRow db.mailMessages row) (AtmCore.insertMessageRow db'.mailMessages row) := by
  have hfind : db.mailMessages.find? row.key = db'.mailMessages.find? row.key := h.find?_mail hrow.key
  have hconf := peers.mailConflict_local hrow h.parts h.parts' h.mail
  have hnew : db.mailMessages.insertNew row = none ↔ db'.mailMessages.insertNew row = none := by
    rw [insertNew_eq_none_iff, insertNew_eq_none_iff, hfind]
  unfold AtmCore.insertMessageRow
  cases hleft : db.mailMessages.insertNew row with
  | none =>
    rw [hnew.mp hleft]
    exact .inl ⟨rfl, rfl⟩
  | some t =>
    cases hr : db'.mailMessages.insertNew row with
    | none =>
      rw [hnew.mpr hr] at hleft
      cases hleft
    | some t' =>
      rw [hconf]
      cases mailConflict db'.mailMessages row with
      | some violated => rfl
      | none =>
        exact .inr ⟨t, t', rfl, rfl, ((insertNew_eq_some_iff _ t).mp hleft).2,
          ((insertNew_eq_some_iff _ t').mp hr).2⟩

theorem Alike.insertMessageCanonical (h : Alike peers db db') (world : World) (hrec : peers.Outside record.links)
    (recordedAt : IsoTimestamp) : AgreesFrom (SameAfter (Alike peers))
      (AtmCore.insertMessageCanonical world record recordedAt) db db' := by
  unfold AgreesFrom AtmCore.insertMessageCanonical
  cases hrow : prepareMessageRow world record recordedAt with
  | error error => rfl
  | ok row =>
    have hlinks : peers.Outside row.links := prepareMessageRow_links hrow ▸ hrec
    have hins := h.insertMessageRow hlinks
    simp only [Outcome.lift, Fallible.bind_ok]
    rcases hins.cases with ⟨error, hleft, hr⟩ | ⟨mail, mail', hleft, hr, hmail⟩
    · rw [hleft, hr]
      rfl
    · rw [hleft, hr]
      rcases hmail with ⟨rfl, rfl⟩ | ⟨t, t', rfl, rfl, ht, ht'⟩
      · exact ⟨rfl, h.withState record recordedAt⟩
      · refine ⟨rfl, ⟨h.tasks, h.taskEvents, h.roster, h.schedules, h.events, h.intents, ?_,
          h.marks.upsert record recordedAt⟩, h.parts.append (.inr hlinks) ht, h.parts'.append (.inr hlinks) ht'⟩
        rw [peers.localRows_append_of_outside hlinks.key ht, peers.localRows_append_of_outside hlinks.key ht', h.mail]

/-- A message of a peer leaves the local part as it is. -/
theorem insertMessageCanonical_inside (hrec : peers.Inside record.links) (hparts : peers.Parts db.mailMessages) :
    Returns (fun result => SameLocally peers db result.2 ∧ peers.Parts result.2.mailMessages)
      (AtmCore.insertMessageCanonical world record recordedAt db) := by
  have hstates : peers.SameMarks db.messageStates (upsertMessageState db.messageStates record recordedAt) :=
    Foreign.sameMarks_upsert_inside hrec.key
  unfold AtmCore.insertMessageCanonical
  cases hrow : prepareMessageRow world record recordedAt with
  | error error => trivial
  | ok row =>
    have hlinks : peers.Inside row.links := prepareMessageRow_links hrow ▸ hrec
    simp only [Outcome.lift, Fallible.bind_ok]
    cases hins : AtmCore.insertMessageRow db.mailMessages row with
    | error error => trivial
    | ok mail =>
      cases mail with
      | none => exact ⟨⟨rfl, rfl, rfl, rfl, rfl, rfl, rfl, hstates⟩, hparts⟩
      | some mail =>
        have hrows := (insertMessageRow_eq_some hins).2.2
        have hkey : peers.key row.messageKey = true := hlinks.key
        exact ⟨⟨rfl, rfl, rfl, rfl, rfl, rfl, by simp [Foreign.localRows, hrows, hkey], hstates⟩,
          hparts.append (.inl hlinks) hrows⟩

end Insertion

/-- The results of an admission that both runs give: the key was new or not, and the stores are alike. -/
def AlikeResults (peers : Foreign) (result result' : UpsertResult × Db) : Prop :=
  result.1.inserted = result'.1.inserted ∧ Alike peers result.2 result'.2

variable {id : AtmMessageId}

section Tasks

variable {peers : Foreign} {db db' : Db} {record : Message}

theorem Alike.insertReassignNotice (h : Alike peers db db') (world : World)
    (hfr : ∀ n, peers.Outside (.ofId (ambient.fresh n))) (taskId : TaskId) (oldAssignee : AgentName) :
    AgreesFrom (SameAfter (Alike peers))
      (AtmCore.insertReassignNotice world ambient record taskId oldAssignee) db db' := by
  have hout : peers.Outside (reassignNotice record taskId oldAssignee (ambient.fresh 1)).links := hfr 1
  refine (h.insertMessageCanonical world hout (ambient.clock 2)).bind ?_
  rintro ⟨inserted, written⟩ ⟨inserted', written'⟩ ⟨hins, hwr⟩
  cases hins
  cases inserted with
  | true => exact ⟨rfl, hwr⟩
  | false => rfl

theorem Alike.applyTaskAssignment (h : Alike peers db db') (world : World)
    (hfr : ∀ n, peers.Outside (.ofId (ambient.fresh n))) (taskId : TaskId) (placement : Option MoveTarget) :
    AgreesFrom (SameAfter (Alike peers))
      (AtmCore.applyTaskAssignment world ambient record taskId placement) db db' := by
  unfold AgreesFrom AtmCore.applyTaskAssignment
  rw [← h.tasks]
  refine agrees_bind_self (fun row _ => agrees_bind_self (fun nextState _ => ?_))
  cases record.envelope.messageId with
  | none => rfl
  | some messageId =>
    refine agrees_bind_self (fun refreshed _ => ?_)
    cases refreshed with
    | some refreshed => exact ⟨rfl, h.withTasks⟩
    | none =>
      refine Agrees.bind (R := fun result result' => (result.1 = result'.1 ∧ result.2.1 = result'.2.1) ∧
        Alike peers result.2.2 result'.2.2) ?_ ?_
      · unfold persistTaskAssignment
        rw [← h.tasks, ← h.taskEvents]
        refine agrees_bind_self (fun queues _ => agrees_bind_self (fun position _ => ?_))
        exact agrees_bind_self (fun events _ => ⟨⟨rfl, rfl⟩, h.withLedger events.2⟩)
      · rintro ⟨ids, events, written⟩ ⟨ids', events', written'⟩ ⟨⟨hids, hevs⟩, hwr⟩
        cases hids
        cases hevs
        refine agrees_bind_self (fun position _ => ?_)
        split
        · exact ⟨rfl, hwr⟩
        · refine (hwr.insertReassignNotice world hfr taskId _).bind ?_
          rintro ⟨notice, noticed⟩ ⟨notice', noticed'⟩ ⟨hnotice, hnoticed⟩
          cases hnotice
          exact ⟨rfl, hnoticed⟩

theorem Alike.applyTaskStart (h : Alike peers db db') (ambient : Ambient) (taskId : TaskId) :
    AgreesFrom (fun result result' => (result.1 = result'.1 ∧ result.2.1 = result'.2.1) ∧
        Alike peers result.2.2 result'.2.2)
      (AtmCore.applyTaskStart ambient record taskId) db db' := by
  have hmax : ∀ row, rejectOverMaxTasks record taskId row db' = rejectOverMaxTasks record taskId row db := by
    intro row
    unfold rejectOverMaxTasks
    rw [h.tasks, h.roster]
  unfold AgreesFrom AtmCore.applyTaskStart
  rw [← h.tasks, ← h.taskEvents]
  simp only [hmax]
  refine agrees_bind_self (fun row _ => ?_)
  split
  · rfl
  · refine agrees_bind_self (fun nextState _ => agrees_bind_self (fun active _ => ?_))
    refine agrees_bind_self (fun tasks _ => agrees_bind_self (fun event _ => ?_))
    exact ⟨⟨rfl, rfl⟩, h.withLedger event.2⟩

/-- The retained message of a local key, up to its read flag. -/
theorem SameLocally.loadExistingMessage (h : SameLocally peers db db') {requested : Message}
    (hkey : peers.key requested.messageKey = false) : AgreesFrom (fun message message' => ∃ read, message' =
        { message with envelope := { message.envelope with read := read } })
      (AtmCore.loadExistingMessage requested) db db' := by
  have hmarks := h.marks requested.mailKey hkey
  unfold AgreesFrom AtmCore.loadExistingMessage
  rw [← h.find?_mail (show peers.key requested.mailKey.2.2 = false from hkey)]
  cases db.mailMessages.find? requested.mailKey with
  | none => rfl
  | some row =>
    cases hleft : db.messageStates.find? requested.mailKey with
    | none =>
      rw [hleft] at hmarks
      rw [map_eq_none_iff.mp hmarks.symm]
      exact ⟨false, rfl⟩
    | some state =>
      rw [hleft] at hmarks
      obtain ⟨state', hr, hmark⟩ := map_eq_some_iff.mp hmarks.symm
      rw [hr]
      simp only [MessageStateRow.mark, StateMark.mk.injEq] at hmark
      obtain ⟨hpend, hack, hexp, -⟩ := hmark
      refine ⟨state'.read, ?_⟩
      simp only [withState, hpend, hack, hexp]

theorem markSourceAcknowledged_read {source : Message} (read : Bool) (now : IsoTimestamp) :
    markSourceAcknowledged { source with envelope := { source.envelope with read := read } } now =
      markSourceAcknowledged source now := rfl

/-- The admission of a local key that is stored rewrites its state row on both sides. -/
theorem Alike.admitMessage_of_present (h : Alike peers db db') (world : World) (upsert : Message → Db → Outcome Db)
    (ambient : Ambient) (provenance : MessageWriteOrigin) (hkey : peers.key record.messageKey = false)
    {stored : MailRow} (hst : db.mailMessages.find? record.mailKey = some stored) :
    AgreesFrom (AlikeResults peers) (admitMessage world upsert ambient record provenance) db db' := by
  have hst' : db'.mailMessages.find? record.mailKey = some stored := by
    rw [← hst]
    exact (h.find?_mail hkey).symm
  have hfence : validateCronGenerationFence provenance db'.cronSchedules =
      validateCronGenerationFence provenance db.cronSchedules := by rw [h.schedules]
  unfold AgreesFrom
  rw [AtmCore.admitMessage_of_present world upsert ambient provenance hst,
    AtmCore.admitMessage_of_present world upsert ambient provenance hst', hfence]
  refine agrees_bind_self (fun _ _ => agrees_bind_self (fun _ _ => ?_))
  have hstate := h.withState record (ambient.clock 0)
  refine (hstate.toSameLocally.loadExistingMessage hkey).bind (fun existing existing' _ => ?_)
  exact ⟨rfl, hstate⟩

/-- The nested admission of a close, on the local keys that are stored. -/
def KeepsAlike (peers : Foreign) (upsert : Message → Db → Outcome Db) : Prop :=
  ∀ (message : Message) (db db' : Db), Alike peers db db' → peers.key message.messageKey = false →
    (db.mailMessages.find? message.mailKey).isSome = true →
    Agrees (Alike peers) (upsert message db) (upsert message db')

theorem keepsAlike_executeUpsertMessage :
    KeepsAlike peers (fun message db => (executeUpsertMessage world 0 ambient message .local db).map Prod.snd) := by
  intro message db db' h hkey hst
  obtain ⟨stored, hst⟩ := isSome_iff_exists.mp hst
  have hadmits := h.admitMessage_of_present world (fun _ _ => .error .panic) ambient .local hkey hst
  simp only [executeUpsertMessage]
  rcases hadmits.cases with ⟨error, hleft, hr⟩ | ⟨result, result', hleft, hr, hres⟩
  · rw [hleft, hr]
    rfl
  · rw [hleft, hr]
    exact hres.2

theorem Foreign.Parts.local_of_id {mail : Table MailRow.key} {team : TeamName} {agent : AgentName}
    (h : peers.Parts mail) (hloc : peers.id id = false) :
    ∀ row ∈ mail.rows, (decide (row.team = team) && decide (row.agent = agent) &&
      decide (row.messageId = some id)) = true → peers.key row.messageKey = false := by
  intro row hrow hf
  simp only [Bool.and_eq_true, decide_eq_true_eq] at hf
  cases hkey : peers.key row.messageKey with
  | false => rfl
  | true =>
    rw [(h.inside hrow hkey).id id hf.2] at hloc
    cases hloc

variable (h : Alike peers db db')
include h

/-- A task of a local assignment finds the same message on both sides, under a local key. -/
theorem Alike.assignmentMail (team : TeamName) {row : TaskRow} (hrow : peers.id row.assignmentMessageId = false) :
    AtmCore.assignmentMail db team row = AtmCore.assignmentMail db' team row ∧
      ∀ mail, AtmCore.assignmentMail db team row = some mail → peers.key mail.messageKey = false := by
  unfold AtmCore.assignmentMail
  constructor
  · rw [peers.find?_localRows (h.parts.local_of_id hrow), peers.find?_localRows (h.parts'.local_of_id hrow), h.mail]
  · intro mail hmail
    have hf := List.find?_some hmail
    exact h.parts.local_of_id hrow mail (List.mem_of_find?_eq_some hmail) hf

theorem Alike.acknowledgeAssignment (hup : KeepsAlike peers upsert) {row : TaskRow}
    (hrow : peers.id row.assignmentMessageId = false) :
    AgreesFrom (Alike peers) (AtmCore.acknowledgeAssignment upsert record row) db db' := by
  obtain ⟨hsame, hloc⟩ := h.assignmentMail record.team hrow
  unfold AgreesFrom AtmCore.acknowledgeAssignment
  rw [← hsame]
  cases hmail : AtmCore.assignmentMail db record.team row with
  | none => exact h
  | some mail =>
    have hkey := hloc mail hmail
    have hload := SameLocally.loadExistingMessage h.toSameLocally
      (show peers.key ({ record with agent := row.assignee, messageKey := mail.messageKey } :
        Message).messageKey = false from hkey)
    dsimp only
    rcases hload.cases with ⟨error, hleft, hr⟩ | ⟨message, message', hleft, hr, read, hread⟩
    · rw [hleft, hr]
      rfl
    · obtain ⟨hmailKey, stored, hst⟩ := loadExistingMessage_eq_ok hleft
      rw [hleft, hr, Fallible.bind_ok, Fallible.bind_ok, hread, markSourceAcknowledged_read]
      split
      · refine hup _ db db' h ?_ ?_
        · have : message.messageKey = mail.messageKey := congrArg (fun key => key.2.2) hmailKey
          rw [show (markSourceAcknowledged message record.envelope.timestamp).messageKey = message.messageKey from rfl,
            this]
          exact hkey
        · rw [← hmailKey] at hst
          exact isSome_iff_exists.mpr ⟨stored, hst⟩
      · exact h

theorem Alike.dropTaskLinkFromMail :
    Alike peers (AtmCore.dropTaskLinkFromMail record db) (AtmCore.dropTaskLinkFromMail record db') :=
  h.withMail _ (fun row => by split <;> rfl)

theorem Alike.deliverRejectedCloseReport (ambient : Ambient) (taskId : TaskId)
    (row : TaskRow) (error : AtmError) : AgreesFrom (After (Alike peers))
      (AtmCore.deliverRejectedCloseReport ambient record taskId row error) db db' := by
  have hdrop : Alike peers (AtmCore.dropTaskLinkFromMail record db) (AtmCore.dropTaskLinkFromMail record db') :=
    h.dropTaskLinkFromMail
  unfold AgreesFrom AtmCore.deliverRejectedCloseReport
  dsimp only
  rw [← hdrop.taskEvents]
  exact agrees_bind_self (fun event _ => ⟨⟨hdrop.tasks, rfl, hdrop.roster, hdrop.schedules, hdrop.events,
    hdrop.intents, hdrop.mail, hdrop.marks⟩, hdrop.parts, hdrop.parts'⟩)

theorem Alike.applyTaskClose (hup : KeepsAlike peers upsert)
    (hlink : LinkedTo (fun id => peers.id id = false) db.tasks) (ambient : Ambient) (taskId : TaskId)
    (outcome : TaskCloseOutcome) (reason : Option String) :
    AgreesFrom (After (Alike peers)) (AtmCore.applyTaskClose upsert ambient record taskId outcome reason) db db' := by
  unfold AgreesFrom AtmCore.applyTaskClose
  rw [← h.tasks]
  refine agrees_bind_self (fun row hload => ?_)
  cases row with
  | none => rfl
  | some row =>
    have hrow : peers.id row.assignmentMessageId = false := hlink.of_loads ((loadTaskRow_spec).of_eq_ok hload)
    dsimp only
    split
    · exact h.dropTaskLinkFromMail
    split
    · exact h.deliverRejectedCloseReport ambient taskId row _
    refine agrees_bind_self (fun nextState _ => ?_)
    split
    · exact h.deliverRejectedCloseReport ambient taskId row _
    refine Agrees.bind (R := SameAfter (Alike peers)) ?_ ?_
    · unfold persistTaskClose
      refine (h.acknowledgeAssignment hup hrow).bind (fun acknowledged acknowledged' hack => ?_)
      rw [← hack.tasks, ← hack.taskEvents]
      refine agrees_bind_self (fun tasks _ => agrees_bind_self (fun event _ => ?_))
      exact ⟨rfl, hack.withLedger event.2⟩
    · rintro ⟨event, written⟩ ⟨event', written'⟩ ⟨-, hwr⟩
      exact hwr

theorem Alike.applyTaskMessage (world : World) (hup : KeepsAlike peers upsert)
    (hlink : LinkedTo (fun id => peers.id id = false) db.tasks) (hfr : ∀ n, peers.Outside (.ofId (ambient.fresh n))) :
    AgreesFrom (After (Alike peers)) (AtmCore.applyTaskMessage world upsert ambient record) db db' := by
  unfold AgreesFrom AtmCore.applyTaskMessage
  cases record.envelope.taskId with
  | none => exact h
  | some taskId =>
    dsimp only
    split
    · rw [← h.tasks]
      refine agrees_bind_self (fun report _ => ?_)
      cases report with
      | true => exact h
      | false => exact (h.applyTaskAssignment world hfr taskId _).bind (fun _ _ hres => hres.2)
    · exact (h.applyTaskStart ambient taskId).bind (fun _ _ hres => hres.2)
    · exact h.applyTaskClose hup hlink ambient taskId _ _

theorem Alike.upsertMessage (world : World) (hrec : peers.Outside record.links)
    (hlink : LinkedTo (fun id => peers.id id = false) db.tasks)
    (hfr : ∀ n, peers.Outside (.ofId (ambient.fresh n))) (provenance : MessageWriteOrigin) :
    AgreesFrom (AlikeResults peers) (AtmCore.upsertMessage world ambient record provenance) db db' := by
  unfold AgreesFrom AtmCore.upsertMessage executeUpsertMessage admitMessage
  rw [← h.schedules]
  refine agrees_bind_self (fun _ _ => ?_)
  have hins := (h.insertMessageCanonical world hrec (ambient.clock 0)).and_returns
    (insertMessageCanonical_sameLedger).returns (returns_any _)
  refine hins.bind ?_
  rintro ⟨inserted, written⟩ ⟨inserted', written'⟩ ⟨⟨hinserted, hwr⟩, hsame, -⟩
  cases hinserted
  cases inserted with
  | false =>
    refine (hwr.loadExistingMessage hrec.key).bind (fun existing existing' _ => ?_)
    exact ⟨rfl, hwr⟩
  | true =>
    dsimp only
    split
    · refine (hwr.applyTaskMessage world (keepsAlike_executeUpsertMessage) ?_ hfr).bind ?_
      · rw [hsame.tasks]
        exact hlink
      · rintro ⟨result, applied⟩ ⟨result', applied'⟩ happlied
        refine ⟨?_, happlied⟩
        cases result <;> cases result' <;> rfl
    · exact ⟨rfl, hwr⟩

end Tasks

end AtmCore
