import AtmCore.BucketRuns

/-! The counts of the asynchronous reader. Its SQL counts every message that has no live successor, and hides nothing.
It counts a message as the engine does just if it takes it for the end of a thread where the engine does so and shows
it, and if the columns of state and envelope together put it into the bucket that the engine finds. -/

namespace AtmCore

open ParentLinks List Option

def bucketFilters (mailbox : MailboxScope) : SearchFilters where
  mailbox := mailbox
  fromAgent := none
  messageId := none
  taskId := none
  contains := none
  since := none
  currentOnly := true
  mailboxSelection := none

def readerBucketCounts (now : IsoTimestamp) (mailbox : MailboxScope) (db : Db) : MailboxBucketCounts :=
  countBuckets now (bucketFilters mailbox) db

/-- The columns of a message put it into the bucket of the engine. As long as its state is not acknowledged, a pending
time in the state or the envelope and no acknowledgement in the envelope mean that the envelope requires one; later it
is read, or none was required. -/
def acknowledgementAlike (stored : StorageEnvelope) (state : MessageStateRow) : Bool :=
  if state.acknowledgedAt.isNone then
    decide (((state.pendingAckAt.isSome || stored.pendingAckAt.isSome) && stored.acknowledgedAt.isNone) =
      stored.decode.requiresAck)
  else !stored.decode.requiresAck || state.read

/-- The engine takes a message for the end of its thread and shows it. -/
def engineShows (now : IsoTimestamp) (mailbox : MailboxScope) (db : Db) (row : MailRow) : Bool :=
  (candidateIndex (mailboxCandidates now mailbox db)).ends (db.messageOf row).envelope &&
    !hiddenFromNormalViews now (db.messageOf row).envelope

def readerEnds (now : IsoTimestamp) (db : Db) (row : MailRow) : Bool :=
  SearchFilters.live now db row && SearchFilters.current now db row

/-- The live messages of a mailbox are such that the reader and the engine count each of them alike. -/
structure ReaderAlike (now : IsoTimestamp) (mailbox : MailboxScope) (db : Db) : Prop where
  ends : ∀ row ∈ liveRows now mailbox db, readerEnds now db row = engineShows now mailbox db row
  bucket : ∀ row ∈ liveRows now mailbox db, engineShows now mailbox db row = true →
    ∀ state, db.stateOf row = some state → acknowledgementAlike row.envelopeJson state = true

def readerCounts (now : IsoTimestamp) (bucket : DisplayBucket) (db : Db) (row : MailRow) : Bool :=
  readerEnds now db row && decide (bucketBy (SearchFilters.pending db row) (db.isRead row) = bucket)

/-- The engine, which has the whole mailbox, counts a message in a bucket. -/
def mailboxCounts (now : IsoTimestamp) (mailbox : MailboxScope) (bucket : DisplayBucket) (db : Db)
    (row : MailRow) : Bool :=
  engineShows now mailbox db row &&
    decide (displayBucketForClass (classifyMessage (db.messageOf row).envelope) = bucket)

section Reader

variable {db : Db} {now : IsoTimestamp} {mailbox : MailboxScope} {row : MailRow} {state : MessageStateRow}

theorem pending_of_state (hstate : db.stateOf row = some state) :
    SearchFilters.pending db row = ((state.pendingAckAt.isSome || row.envelopeJson.pendingAckAt.isSome) &&
      (state.acknowledgedAt.isNone && row.envelopeJson.acknowledgedAt.isNone)) := by
  rw [SearchFilters.pending, SearchFilters.pendingAckAt, SearchFilters.acknowledgedAt, coalesced, coalesced, hstate,
    bind_some, bind_some]
  cases state.pendingAckAt <;> cases state.acknowledgedAt <;> cases row.envelopeJson.pendingAckAt <;>
    cases row.envelopeJson.acknowledgedAt <;> rfl

/-- The columns of the reader give the bucket of the engine exactly when they are such. -/
theorem bucket_eq_iff (hstate : db.stateOf row = some state) :
    bucketBy (SearchFilters.pending db row) (db.isRead row) =
        displayBucketForClass (classifyMessage (db.messageOf row).envelope) ↔
      acknowledgementAlike row.envelopeJson state = true := by
  obtain ⟨hread, hacknowledged, hrequires⟩ := messageOf_marks hstate
  have hisRead : db.isRead row = state.read := by rw [Db.isRead, hstate]; rfl
  rw [pending_of_state hstate, hisRead, acknowledgementAlike, classifyMessage, deriveReadState, deriveAckState,
    deriveAckRequirement, hread, hacknowledged, hrequires, ← not_isNone state.acknowledgedAt]
  generalize (state.pendingAckAt.isSome || row.envelopeJson.pendingAckAt.isSome) = pending,
    state.acknowledgedAt.isNone = owed, row.envelopeJson.acknowledgedAt.isNone = unanswered
  cases owed <;> cases unanswered <;> cases pending <;> cases row.envelopeJson.decode.requiresAck <;>
    cases state.read <;> decide

theorem readerAlike_iff (hs : MailSound db) : ReaderAlike now mailbox db ↔ ∀ row ∈ liveRows now mailbox db,
    ∀ bucket, readerCounts now bucket db row = mailboxCounts now mailbox bucket db row := by
  constructor
  · intro h row hrow bucket
    obtain ⟨state, hstate⟩ := hs.stated row (mem_liveRows.mp hrow).1.1
    rw [readerCounts, mailboxCounts, h.ends row hrow]
    cases hshows : engineShows now mailbox db row with
    | false => rfl
    | true => rw [(bucket_eq_iff hstate).mpr (h.bucket row hrow hshows state hstate)]
  · intro h
    constructor
    · intro row hrow
      have hreader := h row hrow (bucketBy (SearchFilters.pending db row) (db.isRead row))
      have hengine := h row hrow (displayBucketForClass (classifyMessage (db.messageOf row).envelope))
      rw [readerCounts, mailboxCounts, decide_eq_true rfl, Bool.and_true] at hreader hengine
      revert hreader hengine
      cases readerEnds now db row <;> cases engineShows now mailbox db row <;> simp
    · intro row hrow hshows state hstate
      have hengine := h row hrow (displayBucketForClass (classifyMessage (db.messageOf row).envelope))
      rw [readerCounts, mailboxCounts, hshows, decide_eq_true rfl, Bool.and_true, Bool.and_eq_true,
        decide_eq_true_iff] at hengine
      exact (bucket_eq_iff hstate).mp hengine.2

theorem stateLive_of_live (h : SearchFilters.live now db row = true) : stateLive now (db.stateOf row) = true := by
  rw [SearchFilters.live, Bool.and_eq_true] at h
  cases hstate : db.stateOf row with
  | none => rfl
  | some state =>
    rw [hstate, all_some, bind_some] at h
    rw [stateLive, all_some, h.1, Bool.true_and]
    cases hexpires : state.expiresAt with
    | none => rfl
    | some expiresAt =>
      rw [hexpires] at h
      exact h.2

theorem countP_admits (category : MailRow → Bool) :
    ((db.mailMessages.rows.filter ((bucketFilters mailbox).admits now db)).filter category).length =
      (liveRows now mailbox db).countP (fun row => readerEnds now db row && category row) := by
  rw [← countP_eq_length_filter, countP_filter, liveRows, countP_filter]
  refine countP_congr (fun row _ => ?_)
  have hadmits : (bucketFilters mailbox).admits now db row = (row.within mailbox && readerEnds now db row) := by
    simp [SearchFilters.admits, bucketFilters, readerEnds, Bool.and_assoc]
  rw [hadmits, readerEnds]
  cases hlive : SearchFilters.live now db row with
  | false => simp
  | true =>
    rw [stateLive_of_live hlive]
    simp only [Bool.true_and, Bool.and_true, Bool.and_eq_true]
    tauto

theorem readerBucketCounts_eq : readerBucketCounts now mailbox db =
    ⟨(liveRows now mailbox db).countP (readerCounts now .unread db),
      (liveRows now mailbox db).countP (readerCounts now .pendingAck db),
      (liveRows now mailbox db).countP (readerCounts now .history db)⟩ := by
  simp only [readerBucketCounts, countBuckets, countP_admits]
  congr 1
  all_goals
    refine countP_congr (fun row _ => ?_)
    rw [readerCounts]
    cases SearchFilters.pending db row <;> cases db.isRead row <;> simp [bucketBy]

theorem engineBucketCounts_rows (hs : MailSound db) : engineBucketCounts now mailbox db =
    ⟨(liveRows now mailbox db).countP (mailboxCounts now mailbox .unread db),
      (liveRows now mailbox db).countP (mailboxCounts now mailbox .pendingAck db),
      (liveRows now mailbox db).countP (mailboxCounts now mailbox .history db)⟩ := by
  have hcount : ∀ bucket, (logicalCurrentMessages (classifyCandidates (mailboxCandidates now mailbox db))).countP
      (shownIn now bucket) = (liveRows now mailbox db).countP (mailboxCounts now mailbox bucket db) := by
    intro bucket
    rw [mailboxCandidates_eq, countP_ends hs rowsOf_sorted, (mergeSort_perm _ _).countP_eq]
    refine countP_congr (fun row _ => ?_)
    rw [mailboxCounts, engineShows, mailboxCandidates_eq]
    simp only [Bool.and_eq_true]
    tauto
  rw [← hcount, ← hcount, ← hcount, ← bucketCountsFor_eq]
  rfl

end Reader

/-- A message that expires later. -/
def sampleEphemeral : Message :=
  let message := sampleMessage sampleLead sampleMember 1
  { message with envelope := { message.envelope with expiresAt := some ⟨1000000000⟩ } }

end AtmCore
