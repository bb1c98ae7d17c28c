import AtmCore.ThreadParts
import AtmCore.ThreadStore

/-! The two ways to count the buckets of a mailbox. The store counts in SQL, over the columns of the states and the
links between the rows. The engine loads the messages, reduces the threads and classifies what is left by the
envelopes. They agree where the state of each message says of its acknowledgement what its envelope says, and where
the links of the messages close no loop. -/

namespace AtmCore

open ParentLinks List Option MailRow

def Db.candidateOf (db : Db) (row : MailRow) : MailboxSelectionCandidate := selectionCandidate (db.messageOf row)

/-- A row of the mailbox with the first id names the second one as its parent. -/
def Db.replies (db : Db) (mailbox : MailboxScope) (child parent : AtmMessageId) : Prop :=
  ∃ row ∈ db.mailMessages.rows, row.within mailbox = true ∧ row.messageId = some child ∧
    row.parentMessageId = some parent

/-- The state of a message puts it into the bucket its envelope puts it in: it is pending as long as the envelope
requires an acknowledgement, and read once it was given. -/
def countedAlike (stored : StorageEnvelope) (read : Bool) (pendingAckAt acknowledgedAt : Option IsoTimestamp) : Bool :=
  if acknowledgedAt.isNone then decide (pendingAckAt.isSome = stored.decode.requiresAck)
  else !stored.decode.requiresAck || read

/-- What the counts need of the mail tables. -/
structure CountSound (db : Db) : Prop where
  rows : MailSound db
  loopless : ∀ mailbox, Loopless (db.replies mailbox)
  alike : ∀ row ∈ db.mailMessages.rows, ∀ state, db.stateOf row = some state →
    countedAlike row.envelopeJson state.read state.pendingAckAt state.acknowledgedAt = true

/-- The counts of the engine, over all messages of the mailbox. -/
def engineBucketCounts (now : IsoTimestamp) (mailbox : MailboxScope) (db : Db) : MailboxBucketCounts :=
  bucketCountsFor now (logicalCurrentMessages (classifyCandidates
    ((listMessages now ⟨mailbox, none, none, none⟩ db).map selectionCandidate)))

section Candidates

variable {db : Db} {mailbox : MailboxScope} {rows : List MailRow} {row : MailRow}

theorem candidateIndex_messages : (candidateIndex (rows.map db.candidateOf)).messages =
    rows.map (fun row => (db.messageOf row).envelope) := by
  rw [candidateIndex, List.map_map]
  rfl

theorem messageOf_messageId (hs : MailSound db) (hrow : row ∈ db.mailMessages.rows) :
    (db.messageOf row).envelope.messageId = row.messageId := by
  rw [(hs.agrees row hrow).messageId]
  exact (applyLoadedState_place).1

theorem messageOf_parentMessageId (hs : MailSound db) (hrow : row ∈ db.mailMessages.rows) :
    (db.messageOf row).envelope.parentMessageId = row.parentMessageId := by
  rw [(hs.agrees row hrow).parentMessageId]
  exact (applyLoadedState_place).2.1

abbrev RowsOf (mailbox : MailboxScope) (rows : List MailRow) (db : Db) : Prop :=
  ∀ row ∈ rows, row ∈ db.mailMessages.rows ∧ row.within mailbox = true

variable (hs : MailSound db) (hrows : RowsOf mailbox rows db)
include hs hrows

theorem uniqueIds_candidates : UniqueIds (candidateIndex (rows.map db.candidateOf)).messages := by
  rw [candidateIndex_messages]
  intro _ hmem _ hmem' id hid hid'
  obtain ⟨row, hrow, rfl⟩ := List.mem_map.mp hmem
  obtain ⟨other, hother, rfl⟩ := List.mem_map.mp hmem'
  obtain ⟨hst, hwith⟩ := hrows row hrow
  obtain ⟨hst', hwith'⟩ := hrows other hother
  rw [messageOf_messageId hs hst] at hid
  rw [messageOf_messageId hs hst'] at hid'
  obtain ⟨hteam, hag⟩ := within_eq_true.mp hwith
  obtain ⟨hteam', hag'⟩ := within_eq_true.mp hwith'
  rw [hs.ids row hst other hst' (sharesIn_iff.mpr
    ⟨hteam'.trans hteam.symm, hag'.trans hag.symm, id, hid, hid'⟩)]

theorem loopless_candidates (hloop : Loopless (db.replies mailbox)) :
    Loopless (Replies (candidateIndex (rows.map db.candidateOf)).messages) := by
  refine hloop.mono (fun child parent => ?_)
  rw [candidateIndex_messages]
  rintro ⟨_, hmem, hchild, hpar⟩
  obtain ⟨row, hrow, rfl⟩ := List.mem_map.mp hmem
  obtain ⟨hst, hwith⟩ := hrows row hrow
  rw [messageOf_messageId hs hst] at hchild
  rw [messageOf_parentMessageId hs hst] at hpar
  exact ⟨row, hst, hwith, hchild, hpar⟩

/-- A message ends its thread among some rows of its mailbox when none of them names it as its parent. -/
theorem candidateIndex_ends (hloop : Loopless (db.replies mailbox)) (hrow : row ∈ db.mailMessages.rows) :
    (candidateIndex (rows.map db.candidateOf)).ends (db.messageOf row).envelope =
      row.messageId.all (fun id => !rows.any (fun successor => decide (successor.parentMessageId = some id))) := by
  rw [ThreadIndex.ends, messageOf_messageId hs hrow]
  congr 1
  funext id
  rw [Bool.eq_iff_iff, ThreadIndex.isTerminal_iff (loopless_candidates hs hrows hloop), Bool.not_eq_true',
    List.any_eq_false, ThreadIndex.children, filter_eq_nil_iff, candidateIndex_messages]
  constructor
  · intro h successor hsucc
    rw [← messageOf_parentMessageId hs (hrows successor hsucc).1]
    exact h _ (List.mem_map_of_mem hsucc)
  · intro h _ hmem
    obtain ⟨successor, hsucc, rfl⟩ := List.mem_map.mp hmem
    rw [messageOf_parentMessageId hs (hrows successor hsucc).1]
    exact h successor hsucc

end Candidates

variable {row : MailRow} {state : MessageStateRow}

section Counts

/-- A message that a normal view shows in a bucket. -/
def shownIn (now : IsoTimestamp) (bucket : DisplayBucket) (message : ClassifiedMessage) : Bool :=
  !hiddenFromNormalViews now message.envelope && decide (message.bucket = bucket)

theorem bucketCountsFor_eq {now : IsoTimestamp} {messages : List ClassifiedMessage} :
    bucketCountsFor now messages = ⟨messages.countP (shownIn now .unread), messages.countP (shownIn now .pendingAck),
      messages.countP (shownIn now .history)⟩ := by
  have hfold : ∀ counts : MailboxBucketCounts, messages.foldl (fun counts message =>
      if hiddenFromNormalViews now message.envelope then counts else counts.add message.bucket) counts =
      ⟨counts.unread + messages.countP (shownIn now .unread),
        counts.pendingAck + messages.countP (shownIn now .pendingAck),
        counts.history + messages.countP (shownIn now .history)⟩ := by
    induction messages with
    | nil => exact fun counts => rfl
    | cons message messages ih =>
      intro counts
      rw [foldl_cons, ih, countP_cons, countP_cons, countP_cons, shownIn, shownIn, shownIn]
      cases hhidden : hiddenFromNormalViews now message.envelope with
      | true => simp
      | false =>
        cases message.bucket <;> simp [MailboxBucketCounts.add] <;> omega
  rw [bucketCountsFor, hfold]
  simp [MailboxBucketCounts.none]

theorem countP_zipIdx {α : Type} (p : α → Bool) {xs : List α} : xs.zipIdx.countP (fun x => p x.1) = xs.countP p := by
  have hmap : xs.zipIdx.countP (fun x => p x.1) = (xs.zipIdx.map Prod.fst).countP p := (countP_map ..).symm
  rw [hmap, zipIdx_map_fst]

variable {db : Db} {now : IsoTimestamp} {mailbox : MailboxScope} {bucket : DisplayBucket} {rows : List MailRow}

theorem listMessages_all {limit : Option Nat} : listMessages now ⟨mailbox, none, none, limit⟩ db =
    (limited limit ((liveRows now mailbox db).mergeSort newestFirst)).map db.messageOf := by
  have hall : (liveRows now mailbox db).filter (fun row =>
      (none : Option AgentName).all (fun sender => decide (row.fromAgent = sender)) &&
        (none : Option TaskId).all (fun taskId => decide (row.envelopeJson.taskId = some taskId))) =
      liveRows now mailbox db := filter_eq_self.mpr (fun _ _ => rfl)
  rw [listMessages]
  rw [hall]

theorem mem_liveRows : row ∈ liveRows now mailbox db ↔
    (row ∈ db.mailMessages.rows ∧ row.within mailbox = true) ∧ stateLive now (db.stateOf row) = true := by
  rw [liveRows, mem_filter, Bool.and_eq_true, and_assoc]

theorem visibleRow_of_state (h : db.stateOf row = some state) :
    db.visibleRow row = ⟨row.messageId, row.parentMessageId, state.read, state.pendingAckAt, state.acknowledgedAt,
      state.expiresAt⟩ := by
  rw [Db.visibleRow, Db.isRead, h]
  rfl

/-- The rows that SQL counts in a bucket. -/
def sqlCounts (now : IsoTimestamp) (mailbox : MailboxScope) (db : Db) (category : VisibleRow → Bool)
    (row : MailRow) : Bool :=
  VisibleRow.terminal ((liveRows now mailbox db).map db.visibleRow) (db.visibleRow row) &&
    ((db.visibleRow row).expiresAt.isNone || !(db.visibleRow row).isRead) && category (db.visibleRow row)

theorem mailboxBucketCounts_eq : mailboxBucketCounts now mailbox db =
      ⟨(liveRows now mailbox db).countP (sqlCounts now mailbox db (fun row => !row.pending && !row.isRead)),
        (liveRows now mailbox db).countP (sqlCounts now mailbox db VisibleRow.pending),
        (liveRows now mailbox db).countP (sqlCounts now mailbox db (fun row => !row.pending && row.isRead))⟩ := by
  have hcount : ∀ category : VisibleRow → Bool, (((((liveRows now mailbox db).map db.visibleRow).filter
        (VisibleRow.terminal ((liveRows now mailbox db).map db.visibleRow))).filter
          (fun row => row.expiresAt.isNone || !row.isRead)).filter category).length =
      (liveRows now mailbox db).countP (sqlCounts now mailbox db category) := by
    intro category
    rw [← countP_eq_length_filter, countP_filter, countP_filter, countP_map]
    refine countP_congr (fun row _ => ?_)
    rw [Function.comp_apply, sqlCounts, Bool.and_comm (category _), Bool.and_comm _ (VisibleRow.terminal _ _),
      Bool.and_assoc]
  rw [mailboxBucketCounts, hcount, hcount, hcount]

/-- A message that is live by the milliseconds has not expired. -/
theorem not_expired_of_live (hstate : db.stateOf row = some state) (hlive : stateLive now (db.stateOf row) = true) :
    isExpiredEphemeral (db.messageOf row).envelope now = false := by
  rw [isExpiredEphemeral, messageOf_expiresAt hstate]
  rw [hstate, stateLive, all_some, Bool.and_eq_true] at hlive
  cases hexp : state.expiresAt with
  | none => rfl
  | some expiresAt =>
    rw [hexp] at hlive
    have hafter : expiresAfter now expiresAt = true := hlive.2
    rw [expiresAfter, decide_eq_true_iff, IsoTimestamp.millis, IsoTimestamp.millis] at hafter
    exact decide_eq_false (by omega)

theorem hiddenFromNormalViews_of_live (hstate : db.stateOf row = some state)
    (hlive : stateLive now (db.stateOf row) = true) :
    hiddenFromNormalViews now (db.messageOf row).envelope = (state.expiresAt.isSome && state.read) := by
  rw [hiddenFromNormalViews, not_expired_of_live hstate hlive, Bool.false_or, isEphemeral, messageOf_expiresAt hstate,
    Db.messageOf, hstate]
  rfl

theorem messageOf_marks (hstate : db.stateOf row = some state) : (db.messageOf row).envelope.read = state.read ∧
    (db.messageOf row).envelope.acknowledgedAt = state.acknowledgedAt ∧
    (db.messageOf row).envelope.requiresAck = row.envelopeJson.decode.requiresAck := by
  refine ⟨?_, ?_, (applyLoadedState_place).2.2.2⟩ <;> rw [Db.messageOf, hstate] <;> rfl

/-- The bucket of a message that owes an acknowledgement or not, and is read or not. -/
def bucketBy (pending read : Bool) : DisplayBucket :=
  if pending then .pendingAck else if read then .history else .unread

def engineCounts (now : IsoTimestamp) (bucket : DisplayBucket) (rows : List MailRow) (db : Db) (row : MailRow) : Bool :=
  !hiddenFromNormalViews now (db.messageOf row).envelope &&
    decide (displayBucketForClass (classifyMessage (db.messageOf row).envelope) = bucket) &&
    row.messageId.all (fun id => !rows.any (fun successor => decide (successor.parentMessageId = some id)))

theorem bucket_of_alike (hstate : db.stateOf row = some state)
    (halike : countedAlike row.envelopeJson state.read state.pendingAckAt state.acknowledgedAt = true) :
    displayBucketForClass (classifyMessage (db.messageOf row).envelope) =
      bucketBy (state.pendingAckAt.isSome && state.acknowledgedAt.isNone) state.read := by
  obtain ⟨hread, hacknowledged, hreq⟩ := messageOf_marks hstate
  rw [countedAlike] at halike
  rw [classifyMessage, deriveReadState, deriveAckState, deriveAckRequirement, hread, hacknowledged, hreq]
  cases hack : state.acknowledgedAt with
  | none =>
    rw [hack, isNone_none, if_pos rfl, decide_eq_true_iff] at halike
    rw [halike]
    cases row.envelopeJson.decode.requiresAck <;> cases state.read <;> rfl
  | some instant =>
    rw [hack, isNone_some, if_neg Bool.false_ne_true] at halike
    revert halike
    cases state.pendingAckAt <;> cases row.envelopeJson.decode.requiresAck <;> cases state.read <;> simp <;> rfl

/-- The messages that the engine counts in a bucket: those that end a thread of its index and are shown. -/
theorem countP_ends (hs : MailSound db) (hrows : RowsOf mailbox rows db) :
    (logicalCurrentMessages (classifyCandidates (rows.map db.candidateOf))).countP (shownIn now bucket) =
      rows.countP (fun row => (!hiddenFromNormalViews now (db.messageOf row).envelope &&
        decide (displayBucketForClass (classifyMessage (db.messageOf row).envelope) = bucket)) &&
        (candidateIndex (rows.map db.candidateOf)).ends (db.messageOf row).envelope) := by
  rw [logicalCurrentMessages_classifyCandidates (uniqueIds_candidates hs hrows), countP_map, countP_filter]
  refine (countP_zipIdx (fun candidate : MailboxSelectionCandidate =>
    (!hiddenFromNormalViews now candidate.envelope &&
      decide (displayBucketForClass (classifyMessage candidate.envelope) = bucket)) &&
    (candidateIndex (rows.map db.candidateOf)).ends candidate.envelope)).trans ?_
  rw [countP_map]
  rfl

theorem countP_logicalMessages (hs : MailSound db) (hloop : Loopless (db.replies mailbox))
    (hrows : RowsOf mailbox rows db) :
    (logicalCurrentMessages (classifyCandidates (rows.map db.candidateOf))).countP (shownIn now bucket) =
      rows.countP (engineCounts now bucket rows db) := by
  rw [countP_ends hs hrows]
  refine countP_congr (fun row hrow => ?_)
  rw [engineCounts, ← candidateIndex_ends hs hrows hloop (hrows row hrow).1]

theorem sqlCounts_iff (h : CountSound db) {row : MailRow} (hrow : row ∈ liveRows now mailbox db)
    (hperm : rows.Perm (liveRows now mailbox db)) {category : VisibleRow → Bool}
    (hcat : ∀ state, db.stateOf row = some state → (decide (bucketBy (state.pendingAckAt.isSome &&
      state.acknowledgedAt.isNone) state.read = bucket)) = category (db.visibleRow row)) :
    engineCounts now bucket rows db row =
      sqlCounts now mailbox db category row := by
  obtain ⟨⟨hst, -⟩, hlive⟩ := mem_liveRows.mp hrow
  obtain ⟨state, hstate⟩ := h.rows.stated row hst
  have hterm : VisibleRow.terminal ((liveRows now mailbox db).map db.visibleRow) (db.visibleRow row) =
      row.messageId.all (fun id => !rows.any (fun successor => decide (successor.parentMessageId = some id))) := by
    rw [VisibleRow.terminal]
    congr 1
    funext id
    rw [List.any_map, hperm.any_eq]
    rfl
  have hdisplayable : ((db.visibleRow row).expiresAt.isNone || !(db.visibleRow row).isRead) =
      !(state.expiresAt.isSome && state.read) := by
    rw [visibleRow_of_state hstate]
    cases state.expiresAt <;> cases state.read <;> rfl
  rw [engineCounts, hiddenFromNormalViews_of_live hstate hlive, bucket_of_alike hstate (h.alike row hst state hstate),
    hcat state hstate, sqlCounts, hterm, hdisplayable, Bool.and_comm, ← Bool.and_assoc]

theorem rowsOf_sorted : RowsOf mailbox ((liveRows now mailbox db).mergeSort newestFirst) db :=
  fun _ hrow => (mem_liveRows.mp (mem_mergeSort.mp hrow)).1

/-- In a sound store the two counts of a mailbox are the same. -/
theorem engineBucketCounts_eq (h : CountSound db) :
    engineBucketCounts now mailbox db = mailboxBucketCounts now mailbox db := by
  have hperm : ((liveRows now mailbox db).mergeSort newestFirst).Perm (liveRows now mailbox db) :=
    mergeSort_perm _ _
  have hcount : ∀ category bucket, (∀ row state, db.stateOf row = some state →
      (decide (bucketBy (state.pendingAckAt.isSome && state.acknowledgedAt.isNone) state.read = bucket)) =
        category (db.visibleRow row)) →
      (logicalCurrentMessages (classifyCandidates
        (((liveRows now mailbox db).mergeSort newestFirst).map db.candidateOf))).countP (shownIn now bucket) =
      (liveRows now mailbox db).countP (sqlCounts now mailbox db category) := by
    intro category bucket hcat
    rw [countP_logicalMessages h.rows (h.loopless mailbox) rowsOf_sorted, hperm.countP_eq]
    refine countP_congr (fun row hrow => ?_)
    rw [sqlCounts_iff h hrow hperm (hcat row)]
  have hstate : ∀ row state, db.stateOf row = some state →
      (db.visibleRow row).pending = (state.pendingAckAt.isSome && state.acknowledgedAt.isNone) ∧
        (db.visibleRow row).isRead = state.read := by
    intro row state hstate
    rw [VisibleRow.pending, visibleRow_of_state hstate]
    exact ⟨rfl, rfl⟩
  rw [engineBucketCounts, listMessages_all, limited, List.map_map, bucketCountsFor_eq, mailboxBucketCounts_eq]
  congr 1
  all_goals
    refine hcount _ _ (fun row state hrow => ?_)
    simp only [hstate row state hrow]
    cases state.pendingAckAt.isSome && state.acknowledgedAt.isNone <;> cases state.read <;> rfl

end Counts

/-- The candidates of a mailbox. -/
def mailboxCandidates (now : IsoTimestamp) (mailbox : MailboxScope) (db : Db) : List MailboxSelectionCandidate :=
  (listMessages now ⟨mailbox, none, none, none⟩ db).map selectionCandidate

section Mailbox

variable {now : IsoTimestamp} {mailbox : MailboxScope} {db : Db} {candidate : MailboxSelectionCandidate}

theorem mailboxCandidates_eq : mailboxCandidates now mailbox db =
    ((liveRows now mailbox db).mergeSort newestFirst).map db.candidateOf := by
  rw [mailboxCandidates, listMessages_all, List.map_map]
  rfl

theorem mem_mailboxCandidates : candidate ∈ mailboxCandidates now mailbox db ↔
    ∃ row ∈ liveRows now mailbox db, db.candidateOf row = candidate := by
  rw [mailboxCandidates_eq, List.mem_map]
  constructor
  · exact fun ⟨row, hrow, heq⟩ => ⟨row, mem_mergeSort.mp hrow, heq⟩
  · exact fun ⟨row, hrow, heq⟩ => ⟨row, mem_mergeSort.mpr hrow, heq⟩

theorem eq_of_messageKey {row other : MailRow} (hrow : row ∈ liveRows now mailbox db)
    (hother : other ∈ liveRows now mailbox db) (hkey : other.messageKey = row.messageKey) : other = row := by
  obtain ⟨⟨hrow, hwith⟩, -⟩ := mem_liveRows.mp hrow
  obtain ⟨⟨hother, hwith'⟩, -⟩ := mem_liveRows.mp hother
  obtain ⟨hteam, hag⟩ := within_eq_true.mp hwith
  obtain ⟨hteam', hag'⟩ := within_eq_true.mp hwith'
  refine db.mailMessages.eq_of_key_eq hother hrow ?_
  rw [MailRow.key, MailRow.key, hteam, hteam', hag, hag', hkey]

theorem candidate_eq_of_key {other : MailboxSelectionCandidate}
    (hcand : candidate ∈ mailboxCandidates now mailbox db) (hother : other ∈ mailboxCandidates now mailbox db)
    (hkey : other.messageKey = candidate.messageKey) : other = candidate := by
  obtain ⟨row, hrow, rfl⟩ := mem_mailboxCandidates.mp hcand
  obtain ⟨row', hrow', rfl⟩ := mem_mailboxCandidates.mp hother
  rw [eq_of_messageKey hrow hrow' hkey]

theorem unbranched_rows {rows : List MailRow} (hs : MailSound db) (hrows : RowsOf mailbox rows db) :
    Unbranched (candidateIndex (rows.map db.candidateOf)).messages := by
  refine ⟨uniqueIds_candidates hs hrows, ?_⟩
  rw [candidateIndex_messages]
  intro _ hmem _ hmem' id hpar hpar'
  obtain ⟨row, hrow, rfl⟩ := List.mem_map.mp hmem
  obtain ⟨other, hother, rfl⟩ := List.mem_map.mp hmem'
  obtain ⟨hst, hwith⟩ := hrows row hrow
  obtain ⟨hst', hwith'⟩ := hrows other hother
  rw [messageOf_parentMessageId hs hst] at hpar
  rw [messageOf_parentMessageId hs hst'] at hpar'
  obtain ⟨hteam, hag⟩ := within_eq_true.mp hwith
  obtain ⟨hteam', hag'⟩ := within_eq_true.mp hwith'
  rw [hs.successors row hst other hst' (sharesIn_iff.mpr
    ⟨hteam'.trans hteam.symm, hag'.trans hag.symm, id, hpar, hpar'⟩)]

theorem unbranched_candidates (hs : MailSound db) :
    Unbranched (candidateIndex (mailboxCandidates now mailbox db)).messages := by
  rw [mailboxCandidates_eq]
  exact unbranched_rows hs (fun row hrow => (mem_liveRows.mp (mem_mergeSort.mp hrow)).1)

/-- A mailbox whose live messages are stored with the newest first. -/
theorem listMessages_of_sorted
    (h : (liveRows now mailbox db).Pairwise (fun left right => newestFirst left right = true)) :
    listMessages now ⟨mailbox, none, none, none⟩ db = (liveRows now mailbox db).map db.messageOf := by
  simp only [listMessages_all, limited, mergeSort_of_pairwise h]

end Mailbox

end AtmCore
