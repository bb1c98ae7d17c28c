import AtmCore.BucketCounts
import AtmCore.MailRuns
import AtmCore.Redelivery
import AtmCore.ThreadRuns

/-! The bucket counts over the life of a database. What the counts need of the mail tables is kept by every act whose
message comes with a state that agrees with its envelope and closes no loop of parents, and by every opening that clears
no acknowledgement that an envelope requires. -/

namespace AtmCore

open Rows ParentLinks Relation List Option MailRow Table

/-- A message comes with a state that its envelope agrees with. -/
def Message.countedAlike (record : Message) (stored : StorageEnvelope) : Bool :=
  AtmCore.countedAlike stored record.envelope.read record.envelope.pendingAckAt record.envelope.acknowledgedAt

/-- A message that closes no loop: none of those above the parent it names is the message itself. -/
def Message.closesNoLoop (record : Message) (db : Db) : Prop :=
  ∀ id parent, record.envelope.messageId = some id → record.envelope.parentMessageId = some parent →
    ¬ ReflTransGen (db.replies record.mailbox) parent id

/-- What the acts have to keep for the counts to agree. -/
def countGuard : MailGuard
  | .store record _, db => record.countedAlike (.new record.envelope) = true ∧ record.closesNoLoop db
  | .restate record, db => ∀ row, db.mailMessages.find? record.mailKey = some row →
    record.countedAlike row.envelopeJson = true
  | .reopen, db => ∀ row ∈ db.mailMessages.rows, assignsOpenTask db.tasks row = true →
    ∀ state, db.stateOf row = some state → state.acknowledgedAt = none → row.envelopeJson.decode.requiresAck = false
  | _, _ => True

variable {stored : StorageEnvelope} {pendingAckAt : Option IsoTimestamp}

theorem countedAlike_acknowledged
    {instant : IsoTimestamp} : countedAlike stored true pendingAckAt (some instant) = true := by
  rw [countedAlike, isNone_some, if_neg Bool.false_ne_true, Bool.or_true]

theorem countedAlike_read {read : Bool} {acknowledgedAt : Option IsoTimestamp}
    (h : countedAlike stored read pendingAckAt acknowledgedAt = true) :
    countedAlike stored true pendingAckAt acknowledgedAt = true := by
  cases acknowledgedAt with
  | none => exact h
  | some instant => exact countedAlike_acknowledged

theorem countGuard_open : countGuard.Open where
  notice _ _ _ _ _ := ⟨rfl, nofun⟩
  acknowledge _ _ _ := trivial
  decompose _ _ := trivial
  read _ _ := trivial
  acknowledged _ _ _ _ _ := fun _ _ => countedAlike_acknowledged

variable {mailbox : MailboxScope} {row : MailRow} {linked : Bool} {state : MessageStateRow}

section Acts

variable {world : World} {db db' : Db} {record : Message}

theorem CountSound.of_empty (h : db.mailMessages.rows = []) : CountSound db where
  rows := .of_empty h
  loopless mailbox id hloop := by
    have hnone : ∀ child parent, ¬ db.replies mailbox child parent := by
      rintro child parent ⟨row, hrow, -⟩
      rw [h] at hrow
      cases hrow
    cases hloop with
    | single hlink | tail _ hlink => exact hnone _ _ hlink
  alike row hrow := by
    rw [h] at hrow
    cases hrow

theorem loopless_map {f : MailRow → MailRow} (h : Loopless (db.replies mailbox))
    (hrows : ∀ row ∈ db'.mailMessages.rows, ∃ old ∈ db.mailMessages.rows, row = f old)
    (hkey : ∀ row, (f row).key = row.key) (hid : ∀ row, (f row).messageId = row.messageId)
    (hpar : ∀ row, (f row).parentMessageId = row.parentMessageId) : Loopless (db'.replies mailbox) := by
  refine h.mono ?_
  rintro child parent ⟨_, hmem, hwith, hchild, hlink⟩
  obtain ⟨row, hrow, rfl⟩ := hrows _ hmem
  rw [within_congr (hkey row)] at hwith
  exact ⟨row, hrow, hwith, (hid row).symm.trans hchild, (hpar row).symm.trans hlink⟩

theorem loopless_sub (h : Loopless (db.replies mailbox))
    (hrows : ∀ row ∈ db'.mailMessages.rows, row ∈ db.mailMessages.rows) : Loopless (db'.replies mailbox) :=
  loopless_map (f := fun row => row) h (fun row hrow => ⟨row, hrows row hrow, rfl⟩) (fun _ => rfl) (fun _ => rfl)
    (fun _ => rfl)

theorem loopless_store {recordedAt : IsoTimestamp} (h : Loopless (db.replies mailbox))
    (hrow : prepareMessageRow world record recordedAt = .ok row)
    (hmail : db'.mailMessages.rows = db.mailMessages.rows ++ [row.keeping record linked])
    (hloop : record.closesNoLoop db) : Loopless (db'.replies mailbox) := by
  obtain ⟨-, classification, -, rfl⟩ := prepareMessageRow_eq_ok hrow
  have hreplies : ∀ child parent, db'.replies mailbox child parent → db.replies mailbox child parent ∨
      (record.mailbox = mailbox ∧ record.envelope.messageId = some child ∧
        record.envelope.parentMessageId = some parent) := by
    rintro child parent ⟨other, hother, hwith, hchild, hpar⟩
    rw [hmail] at hother
    rcases mem_append.mp hother with hold | hnew
    · exact .inl ⟨other, hold, hwith, hchild, hpar⟩
    · obtain rfl := mem_singleton.mp hnew
      obtain ⟨hteam, hag⟩ := within_eq_true.mp hwith
      refine .inr ⟨?_, hchild, hpar⟩
      rw [Message.mailbox, MailboxScope.mk.injEq]
      exact ⟨hteam, hag⟩
  by_cases hlink : record.mailbox = mailbox ∧ ∃ id parent, record.envelope.messageId = some id ∧
      record.envelope.parentMessageId = some parent
  · obtain ⟨rfl, id, parent, hid, hpar⟩ := hlink
    refine (h.link (hloop id parent hid hpar)).mono (fun child above hreply => ?_)
    rcases hreplies child above hreply with hold | ⟨-, hchild, hab⟩
    · exact .inl hold
    · exact .inr ⟨some.inj (hchild.symm.trans hid), some.inj (hab.symm.trans hpar)⟩
  · refine h.mono (fun child above hreply => ?_)
    rcases hreplies child above hreply with hold | ⟨hbox, hchild, hab⟩
    · exact hold
    · exact absurd ⟨hbox, child, above, hchild, hab⟩ hlink

theorem alike_of_upsert {updatedAt : IsoTimestamp} {row : MailRow}
    (hstates : db'.messageStates = upsertMessageState db.messageStates record updatedAt)
    (hown : record.mailKey = row.key → record.countedAlike row.envelopeJson = true)
    (hother : record.mailKey ≠ row.key → ∀ state, db.stateOf row = some state →
      countedAlike row.envelopeJson state.read state.pendingAckAt state.acknowledgedAt = true)
    (hstate : db'.stateOf row = some state) :
    countedAlike row.envelopeJson state.read state.pendingAckAt state.acknowledgedAt = true := by
  rw [Db.stateOf, hstates, find?_upsertMessageState] at hstate
  by_cases hkey : record.mailKey = row.key
  · rw [if_pos hkey] at hstate
    have halike := hown hkey
    rw [Message.countedAlike] at halike
    cases hstate
    cases db.messageStates.find? row.key <;> exact halike
  · rw [if_neg hkey] at hstate
    exact hother hkey state hstate

theorem alike_of_map {f : MessageStateRow → MessageStateRow} {row : MailRow}
    (h : CountSound db) (hrow : row ∈ db.mailMessages.rows)
    (hstates : db'.messageStates.find? row.key = (db.messageStates.find? row.key).map f)
    (hkeeps : ∀ old, db.stateOf row = some old →
      countedAlike row.envelopeJson old.read old.pendingAckAt old.acknowledgedAt = true →
        countedAlike row.envelopeJson (f old).read (f old).pendingAckAt (f old).acknowledgedAt = true)
    (hstate : db'.stateOf row = some state) :
    countedAlike row.envelopeJson state.read state.pendingAckAt state.acknowledgedAt = true := by
  rw [Db.stateOf, hstates] at hstate
  obtain ⟨old, hold, rfl⟩ := map_eq_some_iff.mp hstate
  exact hkeeps old hold (h.alike row hrow old hold)

/-- Where the messages stay, the states are left to look at. -/
theorem CountSound.restated (h : CountSound db) (hrows : MailSound db') (hmail : db'.mailMessages = db.mailMessages)
    (halike : ∀ row ∈ db.mailMessages.rows, ∀ state, db'.stateOf row = some state →
      countedAlike row.envelopeJson state.read state.pendingAckAt state.acknowledgedAt = true) : CountSound db' :=
  ⟨hrows, fun mailbox => loopless_sub (h.loopless mailbox) (fun _ hrow => hmail ▸ hrow),
    fun row hrow => halike row (hmail ▸ hrow)⟩

theorem CountSound.does {act : MailAct} (h : CountSound db) (hguard : countGuard act db)
    (hact : act.Does world db db') : CountSound db' := by
  have hrows := h.rows.does hact
  cases hact with
  | @store record linked recordedAt row hfr hrow hconf hmail hstates =>
    obtain ⟨halike, hloop⟩ := hguard
    refine ⟨hrows, fun mailbox => loopless_store (h.loopless mailbox) hrow hmail hloop,
      fun other hother state hstate => ?_⟩
    rw [hmail] at hother
    rcases mem_append.mp hother with hst | hnew
    · refine alike_of_upsert hstates (fun hkey => ?_) (fun _ => h.alike other hst) hstate
      exact absurd hkey.symm ((Table.find?_eq_none_iff db.mailMessages).mp hfr other hst)
    · obtain rfl := mem_singleton.mp hnew
      refine alike_of_upsert hstates (fun _ => ?_) (fun hkey => absurd (keeping_key hrow).symm hkey) hstate
      cases linked <;> exact halike
  | restate updatedAt stored hst hmail hstates =>
    refine h.restated hrows hmail (fun row hrow state hstate => ?_)
    exact alike_of_upsert hstates (fun hkey => hguard row (hkey ▸ find?_key hrow)) (fun _ => h.alike row hrow) hstate
  | @acknowledge source instant requested updatedAt hload hpend hmail hstates =>
    refine h.restated hrows hmail (fun row hrow state hstate => ?_)
    exact alike_of_upsert hstates (fun _ => countedAlike_acknowledged) (fun _ => h.alike row hrow) hstate
  | @decompose message hmail hstates =>
    have hold : ∀ row ∈ db'.mailMessages.rows, ∃ old ∈ db.mailMessages.rows, row = decomposeRow message old := by
      intro row hrow
      rw [hmail, mapRows_rows] at hrow
      obtain ⟨old, hold, rfl⟩ := List.mem_map.mp hrow
      exact ⟨old, hold, rfl⟩
    refine ⟨hrows, fun mailbox => loopless_map (h.loopless mailbox) hold (decomposeRow_key message)
      (decomposeRow_messageId message) (decomposeRow_parentMessageId message), fun row hrow state hstate => ?_⟩
    obtain ⟨old, hmem, rfl⟩ := hold row hrow
    rw [Db.stateOf, hstates, decomposeRow_key] at hstate
    rw [decomposeRow_envelopeJson]
    exact h.alike old hmem state hstate
  | read updatedAt nextDue hmail hstates =>
    refine h.restated hrows hmail (fun row hrow state hstate => ?_)
    refine alike_of_map h hrow (by rw [hstates, markMessageRead, find?_mapRows]) (fun old _ halike => ?_) hstate
    split
    · exact countedAlike_read halike
    · exact halike
  | reopen hmail hstates =>
    refine h.restated hrows hmail (fun row hrow state hstate => ?_)
    refine alike_of_map h hrow (by rw [hstates, normalizeLegacyAssignmentMarkers, find?_mapRows])
      (fun old hold halike => ?_) hstate
    split
    · next hclears =>
      obtain ⟨hnone, hassigns⟩ := Bool.and_eq_true_iff.mp hclears
      have hkey : old.key = row.key := key_of_find? hold
      rw [hkey, find?_key hrow, any_some] at hassigns
      have hfree := hguard row hrow hassigns old hold (isNone_iff_eq_none.mp hnone)
      rw [countedAlike, if_pos hnone, hfree]
      rfl
    · exact halike
  | @delete key hmail hstates =>
    have hold : ∀ row ∈ db'.mailMessages.rows, row ∈ db.mailMessages.rows := by
      intro row hrow
      rw [hmail, filterRows_rows] at hrow
      exact mem_of_mem_filter hrow
    refine ⟨hrows, fun mailbox => loopless_sub (h.loopless mailbox) hold, fun row hrow state hstate => ?_⟩
    rw [Db.stateOf, hstates, find?_filterRows] at hstate
    exact h.alike row (hold row hrow) state (eq_some_of_filter_eq_some hstate)

theorem CountSound.same (h : CountSound db) (hsame : SameMail db db') : CountSound db' := by
  refine h.restated (h.rows.of_same hsame) hsame.messages (fun row hrow state hstate => ?_)
  rw [Db.stateOf, hsame.states] at hstate
  exact h.alike row hrow state hstate

end Acts

theorem live_countSound {world : World} {start : Db} (hstart : start.mailMessages.rows = []) {steps : List LifeStep}
    (hmeets : LifeMeets world countGuard steps start) : CountSound (live world steps start) :=
  (live_path countGuard_open start hmeets).keeps (fun _ _ hsame h => h.same hsame)
    (fun _ _ _ hguard hact h => h.does hguard hact) (.of_empty hstart)

/-- In every life from an empty mail store whose acts all keep what the counts need, the two counts agree. -/
theorem bucket_counts_agree (world : World) (start : Db) (hstart : start.mailMessages.rows = []) (steps : List LifeStep)
    (hmeets : LifeMeets world countGuard steps start) (now : IsoTimestamp) (mailbox : MailboxScope) :
    mailboxBucketCounts now mailbox (live world steps start) =
      engineBucketCounts now mailbox (live world steps start) :=
  (engineBucketCounts_eq (live_countSound hstart hmeets)).symm

theorem closesNoLoop_of_unlinked {db : Db} {record : Message}
    (hunlinked : ∀ row ∈ db.mailMessages.rows, row.parentMessageId = none)
    (hapart : record.envelope.parentMessageId ≠ record.envelope.messageId) : record.closesNoLoop db := by
  intro id parent hid hparent hwalk
  rcases ReflTransGen.cases_head hwalk with rfl | ⟨_, ⟨row, hrow, -, -, hup⟩, -⟩
  · exact hapart (hparent.trans hid.symm)
  · rw [hunlinked row hrow] at hup
    cases hup

/-- A message, and details that are added to it and ask for an acknowledgement. -/
def sampleOwingThread : List LifeStep :=
  [.store (sampleWrite (sampleMessage sampleLead sampleMember 2)),
    .store (sampleWrite (sampleUpdate .addDetails 2 sampleOwing))]

/-- They are counted as one pending message both ways. -/
theorem owing_thread_counted_alike :
    let db := live .accepting sampleOwingThread .empty
    mailboxBucketCounts ⟨100⟩ sampleMailbox db = ⟨0, 1, 0⟩ ∧ engineBucketCounts ⟨100⟩ sampleMailbox db = ⟨0, 1, 0⟩ := by
  have hcounts : mailboxBucketCounts ⟨100⟩ sampleMailbox (live .accepting sampleOwingThread .empty) = ⟨0, 1, 0⟩ := by
    decide +kernel
  refine ⟨hcounts, (bucket_counts_agree .accepting .empty rfl _ ?_ ⟨100⟩ sampleMailbox).symm.trans hcounts⟩
  have hunlinked : (live .accepting (sampleOwingThread.take 1) .empty).mailMessages.rows.all
      (fun row => row.parentMessageId.isNone) = true := by decide +kernel
  refine ⟨⟨fun _ _ => ⟨by decide, closesNoLoop_of_unlinked (fun _ hrow => nomatch hrow) (by decide)⟩,
    fun _ hstored => ?_⟩,
    ⟨fun _ _ => ⟨by decide, closesNoLoop_of_unlinked (fun row hrow => ?_) (by decide)⟩, fun _ hstored => ?_⟩, trivial⟩
  · cases hstored
  · exact isNone_iff_eq_none.mp (List.all_eq_true.mp hunlinked row hrow)
  · cases hstored

/-- The lead assigns a task and asks for an acknowledgement. -/
def sampleOwedAssignment : Message :=
  let message := sampleTaskMessage sampleLead sampleMember 1 none
  { message with envelope := { message.envelope with requiresAck := true, pendingAckAt := some ⟨0⟩ } }

/-- When the database is opened again, SQL counts the assignment as unread and the engine as pending. -/
theorem reopened_assignment_counted_apart :
    let reopened := live .accepting [.store (sampleWrite sampleOwedAssignment), .reopen] .empty
    mailboxBucketCounts ⟨100⟩ sampleMailbox reopened = ⟨1, 0, 0⟩ ∧
      engineBucketCounts ⟨100⟩ sampleMailbox reopened = ⟨0, 1, 0⟩ := by
  decide +kernel

end AtmCore
