import AtmCore.Clearing
import AtmCore.MailRuns
import AtmCore.BucketCounts
import AtmCore.ThreadRuns

/-! What a clear does to the messages that wait for an action. A message that goes can be the successor of one that was
not read, which then ends its thread, or be above one whose text is composed from it. The messages that wait stay as
they are exactly when the clear disturbs none of them. -/

namespace AtmCore

open Fallible Relation List ThreadIndex

/-- Unread, or without the acknowledgement it requires. -/
def isActionable (message : MessageEnvelope) : Bool :=
  ReadSelection.actionable.shows (displayBucketForClass (classifyMessage message))

/-- The logical current messages that wait for an action, with their classes and their texts. -/
def actionableMessages (now : IsoTimestamp) (mailbox : MailboxScope) (db : Db) :
    List (MessageKey × MessageClass × String) :=
  ((logicalCurrentMessages (classifyCandidates (mailboxCandidates now mailbox db))).filter
    (fun message => ReadSelection.actionable.shows message.bucket)).map
      (fun message => (message.messageKey, message.«class», message.envelope.text))

/-- The clear disturbs no message of the mailbox that waits for an action. -/
def ClearsApart (fromStr : String → Option Value) (now : IsoTimestamp) (mailbox : MailboxScope) (query : ClearQuery)
    (db : Db) : Prop :=
  ∀ cutoff, cutoffTimestamp now query.olderThan = .ok cutoff → ∀ candidate ∈ mailboxCandidates now mailbox db,
    isActionable candidate.envelope = true → (candidateIndex (mailboxCandidates now mailbox db)).Undisturbed
      (fun message => !clears fromStr cutoff query.idleOnly message) candidate.envelope

variable {candidate : MailboxSelectionCandidate} {message : MessageEnvelope}

section Candidates

variable {fromStr : String → Option Value} {now : IsoTimestamp} {mailbox : MailboxScope} {db : Db}
  {cutoff : Option IsoTimestamp} {idleOnly : Bool}

/-- A message waits for an action at the end of its thread, with the text of the thread. -/
theorem mem_actionableMessages (hs : MailSound db) {entry : MessageKey × MessageClass × String} :
    entry ∈ actionableMessages now mailbox db ↔
      ∃ candidate ∈ mailboxCandidates now mailbox db, isActionable candidate.envelope = true ∧
        (candidateIndex (mailboxCandidates now mailbox db)).ends candidate.envelope = true ∧
        entry = (candidate.messageKey, classifyMessage candidate.envelope,
          (candidateIndex (mailboxCandidates now mailbox db)).logicalText candidate.envelope) := by
  rw [actionableMessages, logicalCurrentMessages_classifyCandidates (unbranched_candidates hs).ids, List.mem_map]
  constructor
  · rintro ⟨message, hmsg, rfl⟩
    obtain ⟨hmsg, hshows⟩ := mem_filter.mp hmsg
    obtain ⟨candidate, hcand, rfl⟩ := List.mem_map.mp hmsg
    obtain ⟨hcand, hends⟩ := mem_filter.mp hcand
    exact ⟨candidate.1, fst_mem_of_mem_zipIdx hcand, hshows, hends, rfl⟩
  · rintro ⟨candidate, hcand, hshows, hends, rfl⟩
    rw [← zipIdx_map_fst 0 (mailboxCandidates now mailbox db)] at hcand
    obtain ⟨indexed, hindexed, rfl⟩ := List.mem_map.mp hcand
    exact ⟨logicalMessage _ indexed, mem_filter.mpr
      ⟨List.mem_map_of_mem (mem_filter.mpr ⟨hindexed, hends⟩), hshows⟩, rfl⟩

theorem mem_actionableMessages_of_candidate (hs : MailSound db)
    (hcand : candidate ∈ mailboxCandidates now mailbox db) (hact : isActionable candidate.envelope = true)
    (text : String) :
    (candidate.messageKey, classifyMessage candidate.envelope, text) ∈ actionableMessages now mailbox db ↔
      (candidateIndex (mailboxCandidates now mailbox db)).ends candidate.envelope = true ∧
        text = (candidateIndex (mailboxCandidates now mailbox db)).logicalText candidate.envelope := by
  rw [mem_actionableMessages hs]
  constructor
  · rintro ⟨other, hother, -, hends, heq⟩
    rw [Prod.mk.injEq, Prod.mk.injEq] at heq
    obtain rfl := candidate_eq_of_key hother hcand heq.1
    exact ⟨hends, heq.2.2⟩
  · rintro ⟨hends, rfl⟩
    exact ⟨candidate, hcand, hact, hends, rfl⟩

theorem not_clears_of_isActionable (h : isActionable message = true) :
    clears fromStr cutoff idleOnly message = false := by
  rw [isActionable] at h
  rw [clears]
  cases hclass : classifyMessage message with
  | unread | pendingAck => simp
  | acknowledged | read =>
    rw [hclass] at h
    cases h

end Candidates

variable {origin : MessageWriteOrigin} {outcome : ClearOutcome}

section Cleared

variable {fromStr : String → Option Value} {now : IsoTimestamp} {mailbox : MailboxScope} {query : ClearQuery} {db : Db}
  {cutoff : Option IsoTimestamp} {metadataRows : List Message} {removable : List RemovableMessage}

theorem MailSound.without (h : MailSound db) (keys : List MessageKey) : MailSound (db.without keys) := by
  have hmem : ∀ row ∈ (db.without keys).mailMessages.rows, row ∈ db.mailMessages.rows ∧ row.messageKey ∉ keys := by
    intro row hrow
    rw [Db.without_mailMessages, mem_filter, decide_eq_true_iff] at hrow
    exact hrow
  refine ⟨fun row hrow => h.agrees row (hmem row hrow).1, fun row hrow => ?_, fun row hrow other hother => ?_,
    fun row hrow other hother => ?_⟩
  · rw [Db.without_stateOf (hmem row hrow).2]
    exact h.stated row (hmem row hrow).1
  · exact h.ids row (hmem row hrow).1 other (hmem other hother).1
  · exact h.successors row (hmem row hrow).1 other (hmem other hother).1

section

variable (hload : loadClearRuntimeContext fromStr now mailbox query db = .ok (metadataRows, removable))
  (hcut : cutoffTimestamp now query.olderThan = .ok cutoff)
include hload hcut

/-- What a clear removes, of the messages it lists. -/
theorem removable_keys {row : MailRow} (hrow : row ∈ liveRows now mailbox db) :
    row.messageKey ∈ removable.map RemovableMessage.messageKey ↔
      clears fromStr cutoff query.idleOnly (db.messageOf row).envelope = true := by
  rw [loadClearRuntimeContext, hcut, bind_ok] at hload
  obtain ⟨listed, hlist, heq⟩ := bind_eq_ok.mp hload
  cases heq
  rw [listMessages_all, limited] at hlist
  rw [sqliteRemovableMessages_eq_ok (fun row hrow => (mem_liveRows.mp (mem_mergeSort.mp hrow)).1) hlist,
    List.mem_map]
  constructor
  · rintro ⟨other, hother, hkey⟩
    obtain ⟨hother, hclears⟩ := mem_filter.mp hother
    rwa [eq_of_messageKey hrow (mem_mergeSort.mp hother) hkey] at hclears
  · exact fun hclears => ⟨row, mem_filter.mpr ⟨mem_mergeSort.mpr hrow, hclears⟩, rfl⟩

theorem mem_mailboxCandidates_without :
    candidate ∈ mailboxCandidates now mailbox (db.without (removable.map RemovableMessage.messageKey)) ↔
      candidate ∈ mailboxCandidates now mailbox db ∧
        clears fromStr cutoff query.idleOnly candidate.envelope = false := by
  rw [mem_mailboxCandidates, mem_mailboxCandidates]
  constructor
  · rintro ⟨row, hrow, rfl⟩
    obtain ⟨hlive, hstays⟩ := mem_liveRows_without.mp hrow
    rw [Db.candidateOf, Db.without_messageOf hstays]
    rw [removable_keys hload hcut hlive, Bool.not_eq_true] at hstays
    exact ⟨⟨row, hlive, rfl⟩, hstays⟩
  · rintro ⟨⟨row, hlive, rfl⟩, hclears⟩
    have hstays : row.messageKey ∉ removable.map RemovableMessage.messageKey := by
      rw [removable_keys hload hcut hlive, Bool.not_eq_true]
      exact hclears
    refine ⟨row, mem_liveRows_without.mpr ⟨hlive, hstays⟩, ?_⟩
    rw [Db.candidateOf, Db.without_messageOf hstays]
    rfl

theorem partOf_without : ThreadIndex.PartOf (fun message => !clears fromStr cutoff query.idleOnly message)
      (candidateIndex (mailboxCandidates now mailbox (db.without (removable.map RemovableMessage.messageKey))))
      (candidateIndex (mailboxCandidates now mailbox db)) := by
  intro message
  rw [candidateIndex, candidateIndex, List.mem_map, List.mem_map, Bool.not_eq_true']
  constructor
  · rintro ⟨candidate, hcand, rfl⟩
    obtain ⟨hcand, hstays⟩ := (mem_mailboxCandidates_without hload hcut).mp hcand
    exact ⟨⟨candidate, hcand, rfl⟩, hstays⟩
  · rintro ⟨⟨candidate, hcand, rfl⟩, hstays⟩
    exact ⟨candidate, (mem_mailboxCandidates_without hload hcut).mpr ⟨hcand, hstays⟩, rfl⟩

end

/-- The messages that wait stay as they are exactly when none of them is disturbed. -/
theorem actionableMessages_without_iff (hs : MailSound db)
    (hload : loadClearRuntimeContext fromStr now mailbox query db = .ok (metadataRows, removable))
    (hcut : cutoffTimestamp now query.olderThan = .ok cutoff) :
    (∀ entry, entry ∈ actionableMessages now mailbox (db.without (removable.map RemovableMessage.messageKey)) ↔
      entry ∈ actionableMessages now mailbox db) ↔
    ∀ candidate ∈ mailboxCandidates now mailbox db, isActionable candidate.envelope = true →
      (candidateIndex (mailboxCandidates now mailbox db)).Undisturbed
        (fun message => !clears fromStr cutoff query.idleOnly message) candidate.envelope := by
  have hpart := partOf_without hload hcut
  have hunbr : Unbranched (candidateIndex (mailboxCandidates now mailbox db)).messages := unbranched_candidates hs
  have hclears := hs.without (removable.map RemovableMessage.messageKey)
  have hstill : ∀ candidate ∈ mailboxCandidates now mailbox db, isActionable candidate.envelope = true →
      candidate ∈ mailboxCandidates now mailbox (db.without (removable.map RemovableMessage.messageKey)) :=
    fun candidate hcand hact => (mem_mailboxCandidates_without hload hcut).mpr
      ⟨hcand, not_clears_of_isActionable hact⟩
  have hiff := fun (candidate : MailboxSelectionCandidate) (hcand : candidate ∈ mailboxCandidates now mailbox db)
      (hact : isActionable candidate.envelope = true) => undisturbed_iff hpart hunbr
        (List.mem_map_of_mem hcand) (Bool.not_eq_true' _ |>.mpr (not_clears_of_isActionable hact))
  constructor
  · intro hsame candidate hcand hact
    have hentry := fun text =>
      (mem_actionableMessages_of_candidate hclears (hstill candidate hcand hact) hact text).symm.trans
        ((hsame _).trans (mem_actionableMessages_of_candidate hs hcand hact text))
    rw [hiff candidate hcand hact]
    exact ⟨⟨fun hends => ((hentry _).mp ⟨hends, rfl⟩).1, fun hends => ((hentry _).mpr ⟨hends, rfl⟩).1⟩,
      fun hends => ((hentry _).mpr ⟨hends, rfl⟩).2.symm⟩
  · intro hundisturbed entry
    rw [mem_actionableMessages hclears, mem_actionableMessages hs]
    constructor
    · rintro ⟨candidate, hcand, hact, hends, rfl⟩
      have hlist := ((mem_mailboxCandidates_without hload hcut).mp hcand).1
      obtain ⟨hplace, htext⟩ := (hiff candidate hlist hact).mp (hundisturbed candidate hlist hact)
      refine ⟨candidate, hlist, hact, hplace.mp hends, ?_⟩
      rw [htext (hplace.mp hends)]
    · rintro ⟨candidate, hlist, hact, hends, rfl⟩
      obtain ⟨hplace, htext⟩ := (hiff candidate hlist hact).mp (hundisturbed candidate hlist hact)
      refine ⟨candidate, hstill candidate hlist hact, hact, hplace.mpr hends, ?_⟩
      rw [htext hends]

theorem clearMail_dryRun (h : (clearMail fromStr now mailbox query origin db).1 = .ok outcome) :
    clearMail fromStr now mailbox { query with dryRun := true } origin db = (.ok outcome, db) := by
  obtain ⟨metadataRows, removable, hload, rfl, -⟩ := clearMail_eq_ok h
  have hload' : loadClearRuntimeContext fromStr now mailbox { query with dryRun := true } db =
      .ok (metadataRows, removable) := hload
  rw [clearMail, hload']
  rfl

end Cleared

/-- In every state of every life from an empty mail store, a clear that is a dry run or fails changes nothing, a dry run
reports what the clear would report, and a clear that succeeds leaves the messages that wait for an action as they are
exactly when it disturbs none of them. -/
theorem clear_keeps_actionable_iff (fromStr : String → Option Value) (world : World) (start : Db)
    (hstart : start.mailMessages.rows = []) (steps : List LifeStep) (now : IsoTimestamp) (mailbox : MailboxScope)
    (query : ClearQuery) (origin : MessageWriteOrigin) :
    let db := live world steps start
    let cleared := clearMail fromStr now mailbox query origin db
    (query.dryRun = true ∨ (∃ fault, cleared.1 = .error fault) → cleared.2 = db) ∧
    (∀ outcome, cleared.1 = .ok outcome →
      clearMail fromStr now mailbox { query with dryRun := true } origin db = (.ok outcome, db)) ∧
    (query.dryRun = false → ∀ outcome, cleared.1 = .ok outcome →
      ((∀ entry, entry ∈ actionableMessages now mailbox cleared.2 ↔ entry ∈ actionableMessages now mailbox db) ↔
        ClearsApart fromStr now mailbox query db)) := by
  refine ⟨?_, fun outcome hok => clearMail_dryRun hok, fun hdry outcome hok => ?_⟩
  · rintro (hdry | ⟨fault, herror⟩)
    · cases hok : (clearMail fromStr now mailbox query origin (live world steps start)).1 with
      | error fault => exact clearMail_of_error hok
      | ok outcome =>
        obtain ⟨_, _, -, -, hdb⟩ := clearMail_eq_ok hok
        exact hdb.trans (if_pos hdry)
    · exact clearMail_of_error herror
  · obtain ⟨metadataRows, removable, hload, -, hdb⟩ := clearMail_eq_ok hok
    obtain ⟨cutoff, hcut, -⟩ := bind_eq_ok.mp hload
    rw [hdb, hdry, if_neg Bool.false_ne_true, actionableMessages_without_iff (live_sound (.of_empty hstart)) hload hcut,
      ClearsApart]
    constructor
    · intro hundisturbed cutoff' hcut'
      rwa [← Except.ok.inj (hcut.symm.trans hcut')]
    · exact fun hap => hap cutoff hcut

/-- A clear that takes no message of a thread disturbs none. -/
theorem undisturbed_of_kept {index : ThreadIndex} {keeps : MessageEnvelope → Bool}
    (h : ∀ message ∈ index.messages, ∀ parent, message.parentMessageId = some parent → keeps message = true ∧
      ∀ other ∈ index.messages, other.messageId = some parent → keeps other = true) :
    index.Undisturbed keeps message := by
  have hnone : ∀ id, ¬ index.LosesAbove keeps id := by
    rintro id ⟨lost, hlost, hgoes, above, habove, hwalk⟩
    obtain ⟨-, -, child, hchild, -, hparent⟩ := TransGen.tail'_iff.mp hwalk
    rw [(h child hchild above hparent).2 lost hlost habove] at hgoes
    cases hgoes
  refine ⟨fun id _ successor hsuccessor hgoes => ?_, fun id _ _ hloses => absurd hloses (hnone id),
    fun id _ _ hloses => absurd hloses (hnone id)⟩
  obtain ⟨hmem, hparent⟩ := mem_children.mp hsuccessor
  rw [(h successor hmem id hparent).1] at hgoes
  cases hgoes

/-- A message with added details, and another one that is read. -/
def sampleReadMail : List LifeStep :=
  let other := sampleMessage sampleLead sampleMember 1
  [.store (sampleWrite (sampleMessage sampleLead sampleMember 3)),
    .store (sampleWrite (sampleUpdate .addDetails 3 (sampleMessage sampleLead sampleMember 2))),
    .store (sampleWrite other),
    .store (.write ⟨.applyReadDisplayState sampleMailbox [other.messageKey] none .local, .steady⟩)]

/-- The clear removes the read message and leaves the thread as it is. -/
theorem thread_kept_by_clear :
    let db := live .accepting sampleReadMail .empty
    let cleared := clearMail (fun _ => none) ⟨100⟩ sampleMailbox ⟨none, false, false⟩ .local db
    cleared.1 = .ok ⟨sampleTeam, sampleMember, 1, 2, ⟨0, 1⟩⟩ ∧
      ∀ entry, entry ∈ actionableMessages ⟨100⟩ sampleMailbox cleared.2 ↔
        entry ∈ actionableMessages ⟨100⟩ sampleMailbox db := by
  have hlisted := @listMessages_of_sorted ⟨100⟩ sampleMailbox (live .accepting sampleReadMail .empty)
    (by decide +kernel)
  have hok : (clearMail (fun _ => none) ⟨100⟩ sampleMailbox ⟨none, false, false⟩ .local
      (live .accepting sampleReadMail .empty)).1 = .ok ⟨sampleTeam, sampleMember, 1, 2, ⟨0, 1⟩⟩ := by
    rw [clearMail, loadClearRuntimeContext, hlisted]
    decide +kernel
  refine ⟨hok, ((clear_keeps_actionable_iff (fun _ => none) .accepting .empty rfl sampleReadMail ⟨100⟩ sampleMailbox
    ⟨none, false, false⟩ .local).2.2 rfl _ hok).mpr (fun cutoff hcutoff candidate _ _ => undisturbed_of_kept ?_)⟩
  cases hcutoff
  have hkept :
    (candidateIndex (mailboxCandidates ⟨100⟩ sampleMailbox (live .accepting sampleReadMail .empty))).messages.all
      (fun message => decide (message.messageId = some (sampleId 1)) || !clears (fun _ => none) none false message) =
        true ∧
      (candidateIndex (mailboxCandidates ⟨100⟩ sampleMailbox (live .accepting sampleReadMail .empty))).messages.all
      (fun message => message.parentMessageId.all (fun parent => decide (parent ≠ sampleId 1) &&
        !clears (fun _ => none) none false message)) = true := by
    rw [mailboxCandidates, hlisted]
    decide +kernel
  intro message hmessage parent hparent
  have hlinked := List.all_eq_true.mp hkept.2 message hmessage
  rw [hparent, Option.all_some, Bool.and_eq_true, decide_eq_true_iff] at hlinked
  refine ⟨hlinked.2, fun other hother hid => ?_⟩
  have hother' := List.all_eq_true.mp hkept.1 other hother
  rw [hid, Bool.or_eq_true, decide_eq_true_iff, Option.some.injEq] at hother'
  exact hother'.resolve_left hlinked.1

/-- A message, a message that supersedes it, and a reader who has read the second one. -/
def sampleSuperseded : List LifeStep :=
  let successor := sampleMessage sampleLead sampleMember 1
  [.store (sampleWrite (sampleMessage sampleLead sampleMember 2)),
    .store (sampleWrite (sampleUpdate .supersede 2 successor)),
    .store (.write ⟨.applyReadDisplayState sampleMailbox [successor.messageKey] none .local, .steady⟩)]

/-- Nothing waits for an action; after the clear the superseded message does. -/
theorem clear_revives_superseded :
    let db := live .accepting sampleSuperseded .empty
    let cleared := clearMail (fun _ => none) ⟨100⟩ sampleMailbox ⟨none, false, false⟩ .local db
    actionableMessages ⟨100⟩ sampleMailbox db = [] ∧ actionableMessages ⟨100⟩ sampleMailbox cleared.2 =
        [((sampleMessage sampleLead sampleMember 2).messageKey, .unread, "")] := by
  have hlisted := @listMessages_of_sorted ⟨100⟩ sampleMailbox (live .accepting sampleSuperseded .empty)
    (by decide +kernel)
  constructor
  · rw [actionableMessages, mailboxCandidates, hlisted]
    decide +kernel
  · rw [clearMail, loadClearRuntimeContext, hlisted]
    decide +kernel

end AtmCore
