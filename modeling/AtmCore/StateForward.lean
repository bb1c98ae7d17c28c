import AtmCore.CronHandover
import AtmCore.NudgeRuns
import AtmCore.Redelivery

/-! The state of a message only moves forward. Several operations write the whole state row from an envelope that they
loaded or built. As long as no sender admits a key that is stored, the envelopes that reach the row of a stored
message are those of its acknowledgement, which is read, owes nothing and is acknowledged. -/

namespace AtmCore

open Rows List Option Table

/-- An acknowledgement is owed. -/
def MessageStateRow.owes (row : MessageStateRow) : Bool := row.pendingAckAt.isSome && row.acknowledgedAt.isNone

/-- What was read stays read; what was acknowledged stays acknowledged and does not become pending; and what is no
longer owed is acknowledged. -/
structure MessageStateRow.Forward (before after : MessageStateRow) : Prop where
  read : before.read = true → after.read = true
  acknowledged : before.acknowledgedAt.isSome = true → after.acknowledgedAt.isSome = true
  pending : before.acknowledgedAt.isSome = true → after.pendingAckAt.isSome = true → before.pendingAckAt.isSome = true
  owed : before.owes = true → after.owes = true ∨ after.acknowledgedAt.isSome = true

namespace MessageStateRow.Forward

theorem refl (row : MessageStateRow) : row.Forward row := ⟨id, id, fun _ h => h, .inl⟩

theorem trans {first second third : MessageStateRow} (h : first.Forward second) (h' : second.Forward third) :
    first.Forward third where
  read hread := h'.read (h.read hread)
  acknowledged hack := h'.acknowledged (h.acknowledged hack)
  pending hack hpend := h.pending hack (h'.pending (h.acknowledged hack) hpend)
  owed howes := (h.owed howes).elim h'.owed (fun hack => .inr (h'.acknowledged hack))

variable {before after : MessageStateRow}

/-- A row that is read and acknowledged, and has nothing pending, comes after any other. -/
theorem of_acknowledged (hread : after.read = true)
    (hack : after.acknowledgedAt.isSome = true) (hpend : after.pendingAckAt = none) : before.Forward after where
  read _ := hread
  acknowledged _ := hack
  pending _ h := by
    rw [hpend] at h
    cases h
  owed _ := .inr hack

theorem of_same (hread : before.read = true → after.read = true)
    (hpend : after.pendingAckAt = before.pendingAckAt) (hack : after.acknowledgedAt = before.acknowledgedAt) :
    before.Forward after where
  read := hread
  acknowledged h := hack ▸ h
  pending _ h := hpend ▸ h
  owed h := .inl (by rw [MessageStateRow.owes, hpend, hack]; exact h)

end MessageStateRow.Forward

/-- No sender admits a key that is stored, and the database is not opened again. -/
def admitsOnce : MailGuard := fun act _ =>
  match act with
  | .restate _ => False
  | .reopen => False
  | _ => True

/-- What reaches a stored message is its acknowledgement, and its key is not deleted. -/
def keepsMessage (key : MessageKey) : MailGuard := fun act _ =>
  match act with
  | .restate record => record.envelope.read = true ∧ record.envelope.acknowledgedAt.isSome = true ∧
      record.envelope.pendingAckAt = none
  | .delete deleted => deleted ≠ key
  | .reopen => False
  | _ => True

theorem keepsMessage_open {key : MessageKey} : (keepsMessage key).Open where
  notice _ _ _ _ _ := trivial
  acknowledge _ _ _ := trivial
  decompose _ _ := trivial
  read _ _ := trivial
  acknowledged _ _ _ _ _ := ⟨rfl, rfl, rfl⟩

section Acts

variable {world : World} {db db' : Db} {key : MailKey} {before : MessageStateRow}

/-- The message of the key is stored, and its state is ahead of the one before. -/
structure AheadOf (key : MailKey) (before : MessageStateRow) (db : Db) : Prop where
  stored : (db.mailMessages.find? key).isSome = true
  ahead : ∃ after, db.messageStates.find? key = some after ∧ before.Forward after

variable (h : AheadOf key before db)
include h

theorem AheadOf.of_eq (hst : (db'.mailMessages.find? key).isSome = true)
    (hstates : db'.messageStates.find? key = db.messageStates.find? key) : AheadOf key before db' :=
  ⟨hst, hstates ▸ h.ahead⟩

/-- The state row is written from an envelope that is read and acknowledged. -/
theorem AheadOf.upsert {record : Message} {updatedAt : IsoTimestamp} (hread : record.envelope.read = true)
    (hack : record.envelope.acknowledgedAt.isSome = true) (hpend : record.envelope.pendingAckAt = none)
    (hmail : db'.mailMessages = db.mailMessages)
    (hstates : db'.messageStates = upsertMessageState db.messageStates record updatedAt) : AheadOf key before db' := by
  have hst : (db'.mailMessages.find? key).isSome = true := hmail ▸ h.stored
  by_cases hkey : record.mailKey = key
  · obtain ⟨after, hafter, -⟩ := h.ahead
    refine ⟨hst, record.restate updatedAt after, ?_, .of_acknowledged hread hack hpend⟩
    rw [hstates, find?_upsertMessageState, if_pos hkey, hafter, elim_some]
  · refine h.of_eq hst ?_
    rw [hstates, find?_upsertMessageState, if_neg hkey]

theorem AheadOf.does {act : MailAct} (hguard : keepsMessage key.2.2 act db) (hdoes : act.Does world db db') :
    AheadOf key before db' := by
  cases hdoes with
  | store recordedAt row hfr hrow hconf hmail hstates =>
    next record linked =>
    have hkey : record.mailKey ≠ key := by
      rintro rfl
      have hst := h.stored
      rw [hfr] at hst
      cases hst
    refine h.of_eq ?_ ?_
    · rw [find?_of_rows_append hmail]
      split
      · rfl
      · exact h.stored
    · rw [hstates, find?_upsertMessageState, if_neg hkey]
  | restate updatedAt stored hst hmail hstates => exact h.upsert hguard.1 hguard.2.1 hguard.2.2 hmail hstates
  | acknowledge requested updatedAt hload hpend hmail hstates => exact h.upsert rfl rfl rfl hmail hstates
  | decompose hmail hstates =>
    refine h.of_eq ?_ (by rw [hstates])
    rw [hmail, find?_mapRows, isSome_map]
    exact h.stored
  | read updatedAt nextDue hmail hstates =>
    obtain ⟨after, hafter, hfwd⟩ := h.ahead
    refine ⟨hmail ▸ h.stored, ?_⟩
    rw [hstates, markMessageRead, find?_mapRows, hafter, map_some]
    refine ⟨_, rfl, hfwd.trans ?_⟩
    split
    · exact .of_same (fun _ => rfl) rfl rfl
    · exact .refl after
  | delete hmail hstates =>
    have hmsg : ∀ row : MailRow, row.key = key → row.messageKey = key.2.2 := fun row hrow => hrow ▸ rfl
    have hstate : ∀ row : MessageStateRow, row.key = key → row.messageKey = key.2.2 := fun row hrow => hrow ▸ rfl
    refine h.of_eq ?_ ?_
    · rw [hmail, find?_filterRows_of_key _ (fun row hrow => decide_eq_true (hmsg row hrow ▸ Ne.symm hguard))]
      exact h.stored
    · rw [hstates, find?_filterRows_of_key _ (fun row hrow => decide_eq_true (hstate row hrow ▸ Ne.symm hguard))]
  | reopen hmail hstates => exact hguard.elim

theorem AheadOf.path (hpath : MailPath world (keepsMessage key.2.2) db db') : AheadOf key before db' :=
  hpath.keeps (fun _ _ hsame h => h.of_eq (hsame.messages ▸ h.stored) (by rw [hsame.states]))
    (fun _ _ _ hguard hdoes h => h.does hguard hdoes) h

theorem AheadOf.nudge (codec : CronCodec) (op : NudgeOp) : AheadOf key before (op.apply codec db) := by
  cases hupd : op.update codec db with
  | none =>
    rw [NudgeOp.apply_of_idle hupd]
    exact h
  | some update =>
    rw [NudgeOp.apply_of_update hupd]
    obtain ⟨after, hafter, hfwd⟩ := h.ahead
    refine ⟨h.stored, update.onRow after, ?_, hfwd.trans ?_⟩
    · rw [NudgeUpdate.find?_apply, hafter, map_some]
    · rw [NudgeUpdate.onRow]
      split
      · exact .of_same id rfl rfl
      · exact .refl after

end Acts

section Runs

variable {codec : CronCodec} {world : World} {key : MailKey} {before : MessageStateRow}
  {db : Db} {later : List QueueStep}

/-- A queued write deletes the key. -/
def QueuedWrite.deletesKey (queued : QueuedWrite) (key : MessageKey) : Prop :=
  ∃ provenance, queued.op = .deleteMessage key provenance

def QueueStep.deletesKey (step : QueueStep) (key : MessageKey) : Prop :=
  match step with
  | .life step => ∃ queued ∈ step.writes, queued.deletesKey key
  | .nudge _ => False

/-- Every step of a run meets the guard. -/
def QueueMeets (codec : CronCodec) (world : World) (guard : MailGuard) : List QueueStep → Db → Prop
  | [], _ => True
  | step :: steps, db => (∀ life, step = .life life → life.Meets world guard db) ∧
      QueueMeets codec world guard steps (step.apply codec world db)

theorem Message.Meets.keepsMessage {record : Message} (h : record.Meets admitsOnce db) (key : MessageKey) :
    record.Meets (keepsMessage key) db :=
  ⟨fun _ _ => trivial, fun stored hst => (h.stored stored hst).elim⟩

theorem MeetsAll.keepsMessage (key : MessageKey) (records : List Message) :
    ∀ {ambient : Ambient} {db : Db}, MeetsAll world admitsOnce ambient records db →
      MeetsAll world (keepsMessage key) ambient records db := by
  induction records with
  | nil => exact fun _ => trivial
  | cons record records ih =>
    rintro ambient db ⟨hmeets, hrest⟩
    exact ⟨hmeets.keepsMessage key, fun result db' hrun => ih (hrest result db' hrun)⟩

theorem QueuedWrite.Meets.keepsMessage {queued : QueuedWrite} (h : queued.Meets world admitsOnce db)
    {key : MessageKey} (hkept : ¬ queued.deletesKey key) : queued.Meets world (keepsMessage key) db := by
  obtain ⟨op, ambient⟩ := queued
  cases op with
  | upsertMessage | admitTemplateMessage => exact Message.Meets.keepsMessage h key
  | upsertMessages records => exact MeetsAll.keepsMessage key records h
  | acknowledge source builder provenance =>
    exact fun loaded reply hload hreply => (h loaded reply hload hreply).keepsMessage key
  | deleteMessage deleted provenance =>
    rintro rfl
    exact hkept ⟨provenance, rfl⟩
  | applyReadDisplayState | taskMove | registerTemplate | admitDecomposedMessage | recordDiagnostics
  | pruneDiagnostics => trivial

theorem MeetsEach.keepsMessage {key : MessageKey} (writes : List QueuedWrite) :
    ∀ {db : Db}, MeetsEach world admitsOnce writes db → (∀ queued ∈ writes, ¬ queued.deletesKey key) →
      MeetsEach world (keepsMessage key) writes db := by
  induction writes with
  | nil => exact fun _ _ => trivial
  | cons queued writes ih =>
    rintro db ⟨hmeets, hrest⟩ hkept
    refine ⟨hmeets.keepsMessage (hkept queued mem_cons_self), ih hrest ?_⟩
    exact fun later hlater => hkept later (mem_cons_of_mem _ hlater)

theorem LifeStep.Meets.keepsMessage {step : LifeStep} {key : MessageKey} (h : step.Meets world admitsOnce db)
    (hkept : ∀ queued ∈ step.writes, ¬ queued.deletesKey key) : step.Meets world (keepsMessage key) db := by
  cases step with
  | reopen => exact h
  | store op =>
    cases op with
    | write queued => exact QueuedWrite.Meets.keepsMessage h (hkept queued mem_cons_self)
    | batch openError commitError writes => exact MeetsEach.keepsMessage writes h hkept
    | move | remind | saveRoster | cron => trivial

theorem QueueMeets.append {guard : MailGuard} (earlier : List QueueStep) :
    ∀ {db : Db}, QueueMeets codec world guard (earlier ++ later) db →
      QueueMeets codec world guard later (queueRun codec world earlier db) := by
  induction earlier with
  | nil => exact fun h => h
  | cons step earlier ih => exact fun h => ih h.2

theorem AheadOf.step {step : QueueStep} (h : AheadOf key before db)
    (hmeets : ∀ life, step = .life life → life.Meets world admitsOnce db) (hkept : ¬ step.deletesKey key.2.2) :
    AheadOf key before (step.apply codec world db) := by
  cases step with
  | nudge op => exact h.nudge codec op
  | life life =>
    have hkept' : ∀ queued ∈ life.writes, ¬ queued.deletesKey key.2.2 :=
      fun queued hq hdeletes => hkept ⟨queued, hq, hdeletes⟩
    have hpath := (keepsMessage_open).answers.step_path
      (fun queued _ => (keepsMessage_open).reads queued) ((hmeets life rfl).keepsMessage hkept')
    exact h.path hpath

theorem AheadOf.run (steps : List QueueStep) :
    ∀ {db : Db}, AheadOf key before db → QueueMeets codec world admitsOnce steps db →
      (∀ step ∈ steps, ¬ step.deletesKey key.2.2) → AheadOf key before (queueRun codec world steps db) := by
  induction steps with
  | nil => exact fun h _ _ => h
  | cons step steps ih =>
    rintro db h ⟨hmeets, hrest⟩ hkept
    exact ih (h.step hmeets (hkept step mem_cons_self)) hrest
      (fun later hlater => hkept later (mem_cons_of_mem _ hlater))

/-- In a run in which no sender admits a key that is stored, the state of a stored message moves forward until the
message is deleted. -/
theorem message_state_moves_forward (codec : CronCodec) (world : World) (earlier later : List QueueStep) (start : Db)
    (honce : QueueMeets codec world admitsOnce (earlier ++ later) start) (key : MailKey) (before : MessageStateRow)
    (hstored : ((queueRun codec world earlier start).mailMessages.find? key).isSome = true)
    (hbefore : (queueRun codec world earlier start).messageStates.find? key = some before) :
    (∃ step ∈ later, step.deletesKey key.2.2) ∨
      ∃ after, (queueRun codec world (earlier ++ later) start).messageStates.find? key = some after ∧
        before.Forward after := by
  by_cases hdeleted : ∃ step ∈ later, step.deletesKey key.2.2
  · exact .inl hdeleted
  · have hkept : ∀ step ∈ later, ¬ step.deletesKey key.2.2 := fun step hstep h => hdeleted ⟨step, hstep, h⟩
    have hahead : AheadOf key before (queueRun codec world earlier start) := ⟨hstored, before, hbefore, .refl before⟩
    right
    rw [queueRun, foldl_append]
    exact (hahead.run later (QueueMeets.append earlier honce) hkept).ahead

end Runs

section Sample

/-- A message that owes an acknowledgement is delivered, and a nudge is due for it. -/
def sampleDelivered : List QueueStep := [
  .life (.store (sampleWrite sampleOwing)),
  .nudge (.mark ⟨sampleTeam, sampleMember⟩ (sampleId 1) ⟨0⟩)]

def sampleAcknowledged : List QueueStep := [.life (.store (.write ⟨sampleAck 2, .steady⟩))]

/-- The state of the message before its acknowledgement. -/
def sampleOwed : MessageStateRow := { sampleOwing.newState ⟨0⟩ with nudgePendingAt := some ⟨0⟩ }

theorem sampleAcknowledged_once :
    QueueMeets .ulid .accepting admitsOnce (sampleDelivered ++ sampleAcknowledged) .empty := by
  refine ⟨?_, fun life hlife => QueueStep.noConfusion hlife, ?_, trivial⟩
  · rintro life ⟨⟩
    exact ⟨fun _ _ => trivial, fun stored hst => nomatch hst⟩
  · rintro life ⟨⟩ loaded reply - hreply
    cases hreply
    refine ⟨fun _ _ => trivial, fun stored hst => ?_⟩
    have hnew : ((queueRun .ulid .accepting sampleDelivered .empty).mailMessages.find?
        (sampleMessage sampleMember sampleLead 2).mailKey).isNone = true := by decide +kernel
    cases (isNone_iff_eq_none.mp hnew).symm.trans hst

theorem acknowledged_owing_forward :
    ∃ after, (queueRun .ulid .accepting (sampleDelivered ++ sampleAcknowledged) .empty).messageStates.find?
      sampleOwing.mailKey = some after ∧ sampleOwed.Forward after := by
  have hforward := message_state_moves_forward .ulid .accepting sampleDelivered sampleAcknowledged .empty
    sampleAcknowledged_once sampleOwing.mailKey sampleOwed (by decide +kernel) (by decide +kernel)
  refine hforward.resolve_left ?_
  rintro ⟨step, hstep, hdeletes⟩
  obtain rfl := mem_singleton.mp hstep
  obtain ⟨queued, hqueued, provenance, hop⟩ := hdeletes
  obtain rfl := mem_singleton.mp hqueued
  cases hop

end Sample

end AtmCore
