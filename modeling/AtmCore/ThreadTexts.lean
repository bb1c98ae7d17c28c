import AtmCore.AsyncMailbox
import Mathlib.Data.List.Infix

/-! The texts of threads in the mailbox of the daemon. The query takes only the ends of threads, so the engine finds no
message above them: an end with a parent shows its own text, and the text filter looks at this text, at the summary and
at the stored text of the row. The engine over the whole mailbox shows, and filters by, the text of the thread. -/

namespace AtmCore

open List Option ThreadIndex

section Contains

variable {text needle : String}

theorem containsIgnoreAsciiCase_iff : containsIgnoreAsciiCase text needle = true ↔
    needle.toList.map Char.toLower <:+: text.toList.map Char.toLower := by
  rw [containsIgnoreAsciiCase, List.any_eq_true]
  constructor
  · rintro ⟨tail, htail, hprefix⟩
    exact ( isPrefixOf_iff_prefix.mp hprefix).isInfix.trans ((mem_tails _ _).mp htail).isInfix
  · intro hinfix
    obtain ⟨tail, hprefix, hsuffix⟩ := infix_iff_prefix_suffix.mp hinfix
    exact ⟨tail, (mem_tails _ _).mpr hsuffix, isPrefixOf_iff_prefix.mpr hprefix⟩

theorem containsIgnoreAsciiCase_self : containsIgnoreAsciiCase text text = true :=
  containsIgnoreAsciiCase_iff.mpr (infix_refl _)

theorem containsIgnoreAsciiCase_trans {middle : String} (h : containsIgnoreAsciiCase text middle = true)
    (hneed : containsIgnoreAsciiCase middle needle = true) : containsIgnoreAsciiCase text needle = true :=
  containsIgnoreAsciiCase_iff.mpr
    ((containsIgnoreAsciiCase_iff.mp hneed).trans (containsIgnoreAsciiCase_iff.mp h))

theorem textContainsNeedle_some : textContainsNeedle (some text) needle = containsIgnoreAsciiCase text needle := by
  rw [textContainsNeedle, any_some]
  by_cases hempty : needle.isEmpty = true
  · obtain rfl := String.isEmpty_iff.mp hempty
    have hall : containsIgnoreAsciiCase text "" = true := containsIgnoreAsciiCase_iff.mpr nil_infix
    rw [hall, Bool.or_true]
  · rw [Bool.not_eq_true _ |>.mp hempty, Bool.false_or]

end Contains

/-- The row holds a text that the query can search for. -/
def MailRow.holdsText (row : MailRow) (needle : String) : Bool :=
  containsIgnoreAsciiCase (row.summary.getD "") needle || containsIgnoreAsciiCase (row.messageText.getD "") needle

section Texts

variable {now : IsoTimestamp} {scope : MailboxScope} {request : MailboxSelectionRequest} {limit : Option Nat} {db : Db}
  {row : MailRow}

theorem mem_liveRows_of_admits (hrow : row ∈ db.mailMessages.rows)
    (h : (mailboxFilters scope request).admits now db row = true) : row ∈ liveRows now scope db := by
  obtain ⟨hwith, hlive, -⟩ := admits_iff.mp h
  exact mem_liveRows.mpr ⟨⟨hrow, hwith⟩, stateLive_of_live hlive⟩

/-- A request without its text filter. -/
abbrev MailboxSelectionRequest.withoutContains (request : MailboxSelectionRequest) : MailboxSelectionRequest :=
  { request with containsFilter := none }

theorem admits_iff_withoutContains : (mailboxFilters scope request).admits now db row = true ↔
    (mailboxFilters scope request.withoutContains).admits now db row = true ∧
      request.containsFilter.all row.holdsText = true := by
  rw [admits_iff, admits_iff]
  tauto

theorem passes_text {message : MessageEnvelope} {text : String} : request.passes now { message with text := text } =
      (request.withoutContains.passes now message && request.containsFilter.all (textContainsNeedle (some text))) := by
  rw [Bool.eq_iff_iff]
  simp only [MailboxSelectionRequest.passes, Bool.and_eq_true, all_none, and_true]
  constructor
  · rintro ⟨⟨hother, hcont⟩, hmode⟩
    exact ⟨⟨hother, hmode⟩, hcont⟩
  · rintro ⟨⟨hother, hmode⟩, hcont⟩
    exact ⟨⟨hother, hcont⟩, hmode⟩

/-- The text of the thread of a message, in the whole mailbox. -/
def threadText (now : IsoTimestamp) (scope : MailboxScope) (db : Db) (row : MailRow) : String :=
  (candidateIndex (mailboxCandidates now scope db)).logicalText (db.messageOf row).envelope

theorem mem_candidateIndex (hrow : row ∈ liveRows now scope db) :
    (db.messageOf row).envelope ∈ (candidateIndex (mailboxCandidates now scope db)).messages :=
  List.mem_map_of_mem (mem_mailboxCandidates.mpr ⟨row, hrow, rfl⟩)

/-- A message that ends its thread shows alone what its thread says exactly when it has no parent, or its thread says
no more than the message. -/
theorem aloneText_eq_threadText_iff (hs : MailSound db) (hrow : row ∈ liveRows now scope db)
    (hends : (candidateIndex (mailboxCandidates now scope db)).ends (db.messageOf row).envelope = true) :
    aloneText (db.messageOf row).envelope = threadText now scope db row ↔
      row.parentMessageId = none ∨ threadText now scope db row = (db.messageOf row).envelope.text := by
  have hunbr : Unbranched (candidateIndex (mailboxCandidates now scope db)).messages := unbranched_candidates hs
  have hmem := mem_candidateIndex hrow
  rw [← messageOf_parentMessageId hs (mem_liveRows.mp hrow).1.1]
  cases hpar : (db.messageOf row).envelope.parentMessageId with
  | some parent =>
    rw [aloneText_of_parent hpar, eq_comm]
    exact ⟨.inr, fun h => h.resolve_left nofun⟩
  | none =>
    refine iff_of_true (logicalText_of_single hunbr.ids hmem hpar (fun id hid => ?_)).symm (.inl rfl)
    rw [ThreadIndex.ends, hid, all_some, isTerminal_iff_loop hunbr] at hends
    rcases hends with hch | hloop
    · exact hch
    · -- a message on a loop has a parent
      obtain ⟨parent, ⟨other, hother, hotherId, hup⟩, -⟩ := Relation.TransGen.head'_iff.mp hloop
      rw [hunbr.ids _ hmem other hother id hid hotherId, hpar] at hup
      cases hup

/-- A request, with a text to look for. -/
abbrev MailboxSelectionRequest.containing (request : MailboxSelectionRequest) (needle : String) :
    MailboxSelectionRequest :=
  { request with containsFilter := some needle }

/-- Selections that take a row show the text of its thread, whatever their text filter is, and take it with a text
filter exactly when this text contains what is looked for. -/
structure ShowsThread (select : MailboxSelectionRequest → MailboxSelectionResult) (request : MailboxSelectionRequest)
    (row : MailRow) (text : String) : Prop where
  shown : ∀ needle, ∀ message ∈ (select { request with containsFilter := needle }).selected,
    message.messageKey = row.messageKey → message.envelope.text = text
  searched : ∀ needle, (∃ message ∈ (select (request.containing needle)).selected,
    message.messageKey = row.messageKey) ↔ containsIgnoreAsciiCase text needle = true

section

variable (hs : MailSound db) (hid : request.messageIdFilter = none) (hrow : row ∈ liveRows now scope db)
include hs hid hrow

theorem selected_of_row {message : SelectedMailboxMessage}
    (hmsg : message ∈ (selectMatching now scope request limit db).selected)
    (hkey : message.messageKey = row.messageKey) :
    message = db.selectedAlone row ∧ (mailboxFilters scope request).admits now db row = true ∧
      request.passes now (alone (db.messageOf row).envelope) = true := by
  rw [selectMatching_selected hs hid] at hmsg
  obtain ⟨other, hother, rfl⟩ := List.mem_map.mp hmsg
  obtain ⟨hother, hpass⟩ := mem_filter.mp hother
  obtain ⟨hst, hadmits⟩ := mem_matchingRows hother
  obtain rfl := eq_of_messageKey hrow (mem_liveRows_of_admits hst hadmits) hkey
  exact ⟨rfl, hadmits, hpass⟩

theorem exists_selected_iff :
    (∃ message ∈ (selectMatching now scope request none db).selected, message.messageKey = row.messageKey) ↔
      (mailboxFilters scope request).admits now db row = true ∧
        request.passes now (alone (db.messageOf row).envelope) = true := by
  constructor
  · rintro ⟨message, hmsg, hkey⟩
    exact (selected_of_row hs hid hrow hmsg hkey).2
  · rintro ⟨hadmits, hpass⟩
    refine ⟨db.selectedAlone row, ?_, rfl⟩
    rw [selectMatching_selected hs hid]
    exact List.mem_map_of_mem (mem_filter.mpr
      ⟨mem_matchingRows_none.mpr ⟨(mem_liveRows.mp hrow).1.1, hadmits⟩, hpass⟩)

/-- The engine over the whole mailbox shows the texts of the threads and filters by them. -/
theorem engine_selected_iff {message : SelectedMailboxMessage} :
    (message ∈ (selectMailboxCandidates now (mailboxCandidates now scope db) request).selected ∧
      message.messageKey = row.messageKey) ↔
    message = (candidateIndex (mailboxCandidates now scope db)).selected (db.candidateOf row) ∧
      (candidateIndex (mailboxCandidates now scope db)).selects now request (db.messageOf row).envelope = true := by
  rw [selected_of_no_id (unbranched_candidates hs).ids hid, List.mem_map]
  constructor
  · rintro ⟨⟨candidate, hcand, rfl⟩, hkey⟩
    obtain ⟨hcand, hsel⟩ := mem_filter.mp hcand
    obtain rfl := candidate_eq_of_key (mem_mailboxCandidates.mpr ⟨row, hrow, rfl⟩) hcand hkey
    exact ⟨rfl, hsel⟩
  · rintro ⟨rfl, hsel⟩
    exact ⟨⟨db.candidateOf row, mem_filter.mpr ⟨mem_mailboxCandidates.mpr ⟨row, hrow, rfl⟩, hsel⟩, rfl⟩, rfl⟩

theorem engine_showsThread
    (hselected : ∃ message ∈
      (selectMailboxCandidates now (mailboxCandidates now scope db) request.withoutContains).selected,
      message.messageKey = row.messageKey) :
    ShowsThread (selectMailboxCandidates now (mailboxCandidates now scope db)) request row
      (threadText now scope db row) := by
  have hiff : ∀ needle message, _ ↔ _ := fun needle message =>
    @engine_selected_iff now scope { request with containsFilter := needle } db row hs hid hrow message
  obtain ⟨taken, hmessage, hkey⟩ := hselected
  obtain ⟨-, hselects⟩ := (hiff none taken).mp ⟨hmessage, hkey⟩
  rw [ThreadIndex.selects, Bool.and_eq_true, ThreadIndex.shown, passes_text, Bool.and_eq_true] at hselects
  constructor
  · intro needle message hmessage hkey
    obtain ⟨rfl, -⟩ := (hiff needle message).mp ⟨hmessage, hkey⟩
    rfl
  · intro needle
    constructor
    · rintro ⟨message, hmessage, hkey⟩
      obtain ⟨-, hselects'⟩ := (hiff (some needle) message).mp ⟨hmessage, hkey⟩
      rw [ThreadIndex.selects, Bool.and_eq_true, ThreadIndex.shown, passes_text, Bool.and_eq_true, all_some,
        textContainsNeedle_some] at hselects'
      exact hselects'.2.2
    · intro hneedle
      obtain ⟨hmessage, hkey⟩ := (hiff (some needle) _).mpr ⟨rfl, by
        rw [ThreadIndex.selects, Bool.and_eq_true, ThreadIndex.shown, passes_text, Bool.and_eq_true, all_some,
          textContainsNeedle_some]
        exact ⟨hselects.1, hselects.2.1, hneedle⟩⟩
      exact ⟨_, hmessage, hkey⟩

/-- The daemon shows the text of a thread exactly when this is the text of the message itself, and the row holds it. -/
theorem daemon_showsThread_iff
    (hends : (candidateIndex (mailboxCandidates now scope db)).ends (db.messageOf row).envelope = true)
    (hselected : ∃ message ∈ (selectMatching now scope request.withoutContains none db).selected,
      message.messageKey = row.messageKey) :
    ShowsThread (fun request => selectMatching now scope request none db) request row (threadText now scope db row) ↔
      (row.parentMessageId = none ∨ threadText now scope db row = (db.messageOf row).envelope.text) ∧
        row.holdsText (threadText now scope db row) = true := by
  rw [← aloneText_eq_threadText_iff hs hrow hends]
  have hiff : ∀ needle, _ ↔ _ := fun needle =>
    @exists_selected_iff now scope { request with containsFilter := needle } db row hs hid hrow
  obtain ⟨hadmits, hpasses⟩ := (hiff none).mp hselected
  have hsearched : ∀ needle, (∃ message ∈ (selectMatching now scope (request.containing needle) none db).selected,
      message.messageKey = row.messageKey) ↔ row.holdsText needle = true ∧
        containsIgnoreAsciiCase (aloneText (db.messageOf row).envelope) needle = true := by
    intro needle
    have hbase : (request.containing needle).withoutContains = request.withoutContains := rfl
    rw [hiff (some needle), admits_iff_withoutContains, hbase, alone, passes_text, hbase, Bool.and_eq_true,
      all_some, all_some, textContainsNeedle_some]
    exact ⟨fun h => ⟨h.1.2, h.2.2⟩, fun h => ⟨⟨hadmits, h.1⟩, hpasses, h.2⟩⟩
  have hshown :
    ∀ needle, ∀ message ∈ (selectMatching now scope { request with containsFilter := needle } none db).selected,
      message.messageKey = row.messageKey → message.envelope.text = aloneText (db.messageOf row).envelope := by
    intro needle message hmessage hkey
    obtain ⟨rfl, -⟩ := @selected_of_row now scope { request with containsFilter := needle } none db row hs hid hrow
      message hmessage hkey
    rfl
  constructor
  · rintro ⟨htexts, hneedles⟩
    obtain ⟨message, hmessage, hkey⟩ := hselected
    refine ⟨(hshown none message hmessage hkey).symm.trans (htexts none message hmessage hkey), ?_⟩
    exact ((hsearched _).mp ((hneedles (threadText now scope db row)).mpr (containsIgnoreAsciiCase_self))).1
  · rintro ⟨htext, hholds⟩
    refine ⟨fun needle message hmessage hkey => (hshown needle message hmessage hkey).trans htext, fun needle => ?_⟩
    rw [hsearched, htext]
    refine ⟨And.right, fun hneedle => ⟨?_, hneedle⟩⟩
    rw [MailRow.holdsText, Bool.or_eq_true] at hholds ⊢
    exact hholds.imp (containsIgnoreAsciiCase_trans · hneedle) (containsIgnoreAsciiCase_trans · hneedle)

end

end Texts

def sampleAll : MailboxSelectionRequest := ⟨.all, none, none, none, none, none, none⟩

/-- A message with a text. -/
def sampleText (n : Nat) (text : String) : Message :=
  let message := sampleMessage sampleLead sampleMember n
  { message with envelope := { message.envelope with text := text } }

/-- A message, and details that are added to it. -/
def sampleDetailThread : List LifeStep :=
  [.store (sampleWrite (sampleText 2 "Fix the parser")),
    .store (sampleWrite (sampleUpdate .addDetails 2 (sampleText 1 "and the tests.")))]

/-- Details that are added to a message without a text. -/
def sampleBlankThread : List LifeStep :=
  [.store (sampleWrite (sampleText 2 "")),
    .store (sampleWrite (sampleUpdate .addDetails 2 (sampleText 1 "and the tests.")))]

end AtmCore
