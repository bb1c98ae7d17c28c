import AtmCore.KeyedLists
import AtmCore.ThreadTexts

/-! The reads of the daemon against the selection engine. A query that takes one row and then looks at it alone counts
what the engine selects if its filters take just the messages that the engine takes. It then shows the message that
the engine puts first exactly when the newest of them is left when it is looked at alone, and is first in the order of
display, too. -/

namespace AtmCore

open List Option

variable {row : MailRow}

def displayOrder (left right : MailRow) : Bool :=
  decide (right.messageAt.nanos < left.messageAt.nanos ∨
    (right.messageAt.nanos = left.messageAt.nanos ∧ (idRank right.messageId < idRank left.messageId ∨
      (idRank right.messageId = idRank left.messageId ∧ right.messageKey.val ≤ left.messageKey.val))))

section Rows

variable {now : IsoTimestamp} {scope : MailboxScope} {request : MailboxSelectionRequest} {db : Db} {row : MailRow}

theorem messageOf_timestamp (hs : MailSound db) (hrow : row ∈ db.mailMessages.rows) :
    (db.messageOf row).envelope.timestamp = row.messageAt := by
  rw [(hs.agrees row hrow).messageAt, Db.messageOf]
  cases db.stateOf row <;> rfl

/-- The verdict of the engine on a row of the whole mailbox. -/
def engineTakes (now : IsoTimestamp) (scope : MailboxScope) (request : MailboxSelectionRequest)
    (db : Db) (row : MailRow) : Bool :=
  match request.messageIdFilter with
  | some id => request.names id (db.messageOf row).envelope
  | none => (candidateIndex (mailboxCandidates now scope db)).selects now request (db.messageOf row).envelope

/-- The filters of the query take just the live messages that the engine takes. -/
def TakesAlike (now : IsoTimestamp) (scope : MailboxScope) (request : MailboxSelectionRequest) (db : Db) : Prop :=
  ∀ row ∈ liveRows now scope db,
    (mailboxFilters scope request).admits now db row = engineTakes now scope request db row

end Rows

section Lists

variable {now : IsoTimestamp} {scope : MailboxScope} {request : MailboxSelectionRequest} {db : Db}

theorem newestFirst_trans (a b c : MailRow) (hab : newestFirst a b = true) (hbc : newestFirst b c = true) :
    newestFirst a c = true := by
  simp only [newestFirst, decide_eq_true_eq] at hab hbc ⊢
  rcases hab with hab | ⟨hab, hkey⟩ <;> rcases hbc with hbc | ⟨hbc, hkey'⟩
  · exact .inl (by omega)
  · exact .inl (by omega)
  · exact .inl (by omega)
  · exact .inr ⟨by omega, le_trans hkey' hkey⟩

theorem newestFirst_total (a b : MailRow) : (newestFirst a b || newestFirst b a) = true := by
  simp only [newestFirst, Bool.or_eq_true, decide_eq_true_eq]
  rcases lt_trichotomy b.messageAt.nanos a.messageAt.nanos with hlt | heq | hgt
  · exact .inl (.inl hlt)
  · rcases le_total b.messageKey.val a.messageKey.val with hkey | hkey
    · exact .inl (.inr ⟨heq, hkey⟩)
    · exact .inr (.inr ⟨heq.symm, hkey⟩)
  · exact .inr (.inl hgt)

theorem messageKey_eq {a b : MessageKey} (h : a.val = b.val) : a = b := by
  cases a
  cases b
  exact (MessageKey.mk.injEq ..).mpr h

theorem newestFirst_antisymm {a b : MailRow} (ha : a ∈ liveRows now scope db) (hb : b ∈ liveRows now scope db)
    (hab : newestFirst a b = true) (hba : newestFirst b a = true) : a = b := by
  simp only [newestFirst, decide_eq_true_eq] at hab hba
  have hkeys : a.messageKey.val = b.messageKey.val := by
    rcases hab with hab | ⟨hab, hkey⟩
    · rcases hba with hba | ⟨hba, -⟩ <;> omega
    · rcases hba with hba | ⟨-, hkey'⟩
      · omega
      · exact le_antisymm hkey' hkey
  exact eq_of_messageKey hb ha (messageKey_eq hkeys)

/-- The live rows of a mailbox, the newest first. -/
def sortedRows (now : IsoTimestamp) (scope : MailboxScope) (db : Db) : List MailRow :=
  (liveRows now scope db).mergeSort newestFirst

theorem mem_sortedRows : row ∈ sortedRows now scope db ↔ row ∈ liveRows now scope db := mem_mergeSort

theorem sortedRows_pairwise (p : MailRow → Bool) :
    ((sortedRows now scope db).filter p).Pairwise (fun a b => newestFirst a b = true) :=
  (pairwise_mergeSort newestFirst_trans newestFirst_total _).filter p

/-- The query without a limit takes its rows from the live ones, in their order. -/
theorem matchingRows_none_eq : matchingRows now scope request none db =
    (sortedRows now scope db).filter ((mailboxFilters scope request).admits now db) := by
  have hst : db.mailMessages.rows.filter ((mailboxFilters scope request).admits now db) =
      (liveRows now scope db).filter ((mailboxFilters scope request).admits now db) := by
    rw [liveRows, List.filter_filter]
    refine filter_congr (fun row hrow => ?_)
    cases hadmits : (mailboxFilters scope request).admits now db row with
    | false => rfl
    | true =>
      have hlive := mem_liveRows_of_admits hrow hadmits
      rw [liveRows, mem_filter] at hlive
      rw [hlive.2]
      rfl
  have hperm : (((liveRows now scope db).filter ((mailboxFilters scope request).admits now db)).mergeSort
      newestFirst).Perm
      ((sortedRows now scope db).filter ((mailboxFilters scope request).admits now db)) :=
    (mergeSort_perm _ _).trans ((mergeSort_perm _ _).symm.filter _)
  rw [matchingRows, hst]
  refine hperm.eq_of_pairwise (fun a b ha hb hab hba => ?_)
    (pairwise_mergeSort newestFirst_trans newestFirst_total _) (sortedRows_pairwise _)
  have ha' : a ∈ liveRows now scope db := mem_of_mem_filter (mem_mergeSort.mp ha)
  exact newestFirst_antisymm ha' (mem_sortedRows.mp (mem_of_mem_filter hb)) hab hba

/-- What the engine makes of a row that it takes. -/
def enginePick (now : IsoTimestamp) (scope : MailboxScope) (request : MailboxSelectionRequest)
    (db : Db) (row : MailRow) : SelectedMailboxMessage :=
  match request.messageIdFilter with
  | some _ => (candidateIndex (mailboxCandidates now scope db)).named (db.candidateOf row)
  | none => (candidateIndex (mailboxCandidates now scope db)).selected (db.candidateOf row)

abbrev engineRows (now : IsoTimestamp) (scope : MailboxScope) (request : MailboxSelectionRequest) (db : Db) :
    List MailRow :=
  (sortedRows now scope db).filter (engineTakes now scope request db)

/-- The engine over the whole mailbox takes rows in their order. -/
theorem engine_selected_rows (hs : MailSound db) :
    (selectMailboxCandidates now (mailboxCandidates now scope db) request).selected =
      (engineRows now scope request db).map (enginePick now scope request db) := by
  have hrows : ∀ (p : MailboxSelectionCandidate → Bool) (g : MailboxSelectionCandidate → SelectedMailboxMessage),
      (∀ row, engineTakes now scope request db row = p (db.candidateOf row)) →
      (∀ row, enginePick now scope request db row = g (db.candidateOf row)) →
      ((mailboxCandidates now scope db).filter p).map g =
        (engineRows now scope request db).map (enginePick now scope request db) := by
    intro p g htakes hpick
    rw [mailboxCandidates_eq, List.filter_map, List.map_map, engineRows, funext htakes, funext hpick]
    rfl
  cases hid : request.messageIdFilter with
  | some id =>
    rw [selected_of_id hid]
    exact hrows _ _ (fun row => by rw [engineTakes, hid]; rfl) (fun row => by rw [enginePick, hid])
  | none =>
    rw [selected_of_no_id (unbranched_candidates hs).ids hid]
    exact hrows _ _ (fun row => by rw [engineTakes, hid]; rfl) (fun row => by rw [enginePick, hid])

theorem enginePick_messageKey : (enginePick now scope request db row).messageKey = row.messageKey := by
  rw [enginePick]
  split <;> rfl

theorem enginePick_place :
    (enginePick now scope request db row).envelope.timestamp = (db.messageOf row).envelope.timestamp ∧
      (enginePick now scope request db row).envelope.messageId = (db.messageOf row).envelope.messageId := by
  have hview := effectiveDisplayEnvelope_view (candidateIndex (mailboxCandidates now scope db))
  rw [enginePick]
  split
  · exact ⟨hview.timestamp _, hview.messageId _⟩
  · exact ⟨rfl, rfl⟩

theorem displayedBefore_enginePick (hs : MailSound db) {other : MailRow}
    (hrow : row ∈ liveRows now scope db) (hother : other ∈ liveRows now scope db) :
    displayedBefore (enginePick now scope request db row) (enginePick now scope request db other) =
      displayOrder row other := by
  have hst := (mem_liveRows.mp hrow).1.1
  have hst' := (mem_liveRows.mp hother).1.1
  rw [displayedBefore, displayOrder, enginePick_messageKey, enginePick_messageKey, (enginePick_place).1,
    (enginePick_place).2, (enginePick_place).1, (enginePick_place).2, messageOf_timestamp hs hst,
    messageOf_timestamp hs hst', messageOf_messageId hs hst, messageOf_messageId hs hst']

theorem displayOrder_trans (a b c : MailRow) (hab : displayOrder a b = true) (hbc : displayOrder b c = true) :
    displayOrder a c = true := by
  simp only [displayOrder, decide_eq_true_eq] at hab hbc ⊢
  rcases hab with hab | ⟨hab, hab' | ⟨hab', hkey⟩⟩ <;> rcases hbc with hbc | ⟨hbc, hbc' | ⟨hbc', hkey'⟩⟩
  case inr.inr.inr.inr => exact .inr ⟨by omega, .inr ⟨by omega, le_trans hkey' hkey⟩⟩
  all_goals first | exact .inl (by omega) | exact .inr ⟨by omega, .inl (by omega)⟩

theorem displayOrder_total (a b : MailRow) : (displayOrder a b || displayOrder b a) = true := by
  simp only [displayOrder, Bool.or_eq_true, decide_eq_true_eq]
  rcases lt_trichotomy b.messageAt.nanos a.messageAt.nanos with hlt | heq | hgt
  · exact .inl (.inl hlt)
  · rcases lt_trichotomy (idRank b.messageId) (idRank a.messageId) with hid | hid | hid
    · exact .inl (.inr ⟨heq, .inl hid⟩)
    · rcases le_total b.messageKey.val a.messageKey.val with hkey | hkey
      · exact .inl (.inr ⟨heq, .inr ⟨hid, hkey⟩⟩)
      · exact .inr (.inr ⟨heq.symm, .inr ⟨hid.symm, hkey⟩⟩)
    · exact .inr (.inr ⟨heq.symm, .inl hid⟩)
  · exact .inr (.inl hgt)

theorem displayOrder_antisymm {a b : MailRow} (ha : a ∈ liveRows now scope db) (hb : b ∈ liveRows now scope db)
    (hab : displayOrder a b = true) (hba : displayOrder b a = true) : a = b := by
  simp only [displayOrder, decide_eq_true_eq] at hab hba
  have hkeys : a.messageKey.val = b.messageKey.val := by
    rcases hab with hab | ⟨hab, hab' | ⟨hab', hkey⟩⟩ <;> rcases hba with hba | ⟨hba, hba' | ⟨hba', hkey'⟩⟩
    case inr.inr.inr.inr => exact le_antisymm hkey' hkey
    all_goals omega
  exact eq_of_messageKey hb ha (messageKey_eq hkeys)

/-- A message that the engine takes is left when the engine has it alone: a named one always, another one if its own
text passes the text filter. -/
def leftAlone (request : MailboxSelectionRequest) (db : Db) (row : MailRow) : Bool :=
  request.messageIdFilter.isSome ||
    request.containsFilter.all (textContainsNeedle (some (aloneText (db.messageOf row).envelope)))

theorem passes_alone_of_engineTakes (hid : request.messageIdFilter = none)
    (htakes : engineTakes now scope request db row = true) :
    request.passes now (alone (db.messageOf row).envelope) = leftAlone request db row := by
  rw [engineTakes, hid] at htakes
  rw [ThreadIndex.selects, ThreadIndex.shown, passes_text, Bool.and_eq_true, Bool.and_eq_true] at htakes
  rw [alone, passes_text, htakes.2.1, Bool.true_and, leftAlone, hid, isSome_none, Bool.false_or]

section

variable (h : TakesAlike now scope request db)
include h

theorem TakesAlike.matchingRows_eq : matchingRows now scope request none db = engineRows now scope request db := by
  rw [matchingRows_none_eq]
  exact filter_congr (fun row hrow => h row (mem_sortedRows.mp hrow))

/-- The selection of a read has the first row that the engine takes, if that is left alone. -/
theorem TakesAlike.selectMatching_one (hs : MailSound db) :
    ∃ pick : MailRow → SelectedMailboxMessage, (∀ row, (pick row).messageKey = row.messageKey ∧
        (pick row).envelope.messageId = (db.messageOf row).envelope.messageId) ∧
      (selectMatching now scope request (some 1) db).selected =
        (((engineRows now scope request db).take 1).filter (leftAlone request db)).map pick := by
  have hrows : matchingRows now scope request (some 1) db = (engineRows now scope request db).take 1 := by
    rw [← h.matchingRows_eq]
    rfl
  have htakes : ∀ row ∈ (engineRows now scope request db).take 1, engineTakes now scope request db row = true :=
    fun row hrow => (mem_filter.mp (mem_of_mem_take hrow)).2
  cases hid : request.messageIdFilter with
  | none =>
    refine ⟨db.selectedAlone, fun row => ⟨rfl, rfl⟩, ?_⟩
    rw [selectMatching_selected hs hid, hrows]
    exact congrArg _ (filter_congr (fun row hrow => passes_alone_of_engineTakes hid (htakes row hrow)))
  | some id =>
    refine ⟨fun row => (candidateIndex ((matchingRows now scope request (some 1) db).map db.candidateOf)).named
      (db.candidateOf row), fun row => ⟨rfl, (effectiveDisplayEnvelope_view _).messageId _⟩, ?_⟩
    have hnamed : ((engineRows now scope request db).take 1).filter
        ((fun candidate => request.names id candidate.envelope) ∘ db.candidateOf) =
          ((engineRows now scope request db).take 1).filter (leftAlone request db) := by
      refine filter_congr (fun row hrow => ?_)
      have hnames := htakes row hrow
      rw [engineTakes, hid] at hnames
      rw [leftAlone, hid, isSome_some, Bool.true_or]
      exact hnames
    rw [selectMatching_rows, selected_of_id hid, List.filter_map, List.map_map, hrows, hnamed]
    rfl

end

/-- What the engine puts first, of all live messages of the mailbox. -/
def engineFirst (now : IsoTimestamp) (scope : MailboxScope) (request : MailboxSelectionRequest) (db : Db) :
    Option SelectedMailboxMessage :=
  (sortAndLimitMailboxSelection
    (selectMailboxCandidates now (mailboxCandidates now scope db) request).selected (some 1)).head?

end Lists

/-- What is first of the messages that the engine takes is left alone, and is first in the order of display, too. -/
def FirstAlike (now : IsoTimestamp) (scope : MailboxScope) (request : MailboxSelectionRequest) (db : Db) : Prop :=
  ∀ row ∈ (engineRows now scope request db).head?, leftAlone request db row = true ∧
    ∀ other ∈ engineRows now scope request db, displayOrder row other = true

section First

variable {now : IsoTimestamp} {scope : MailboxScope} {request : MailboxSelectionRequest} {db : Db}

theorem engineFirst_eq (hs : MailSound db) : engineFirst now scope request db =
    ((engineRows now scope request db).mergeSort displayOrder).head?.map (enginePick now scope request db) := by
  have hsorted : ((engineRows now scope request db).map (enginePick now scope request db)).mergeSort displayedBefore =
      ((engineRows now scope request db).mergeSort displayOrder).map (enginePick now scope request db) := by
    refine (map_mergeSort (fun row hrow other hother => ?_)).symm
    exact (displayedBefore_enginePick hs (mem_sortedRows.mp (mem_of_mem_filter hrow))
      (mem_sortedRows.mp (mem_of_mem_filter hother))).symm
  rw [engineFirst, sortAndLimitMailboxSelection, engine_selected_rows hs, hsorted, limited, head?_take,
    if_neg (by decide), head?_map]

/-- The message of a read is the newest that the engine takes, if that is left alone. -/
theorem TakesAlike.message_eq (h : TakesAlike now scope request db) (hs : MailSound db) :
    ∃ pick : MailRow → SelectedMailboxMessage, (∀ row, (pick row).messageKey = row.messageKey ∧
        (pick row).envelope.messageId = (db.messageOf row).envelope.messageId) ∧
      (sortAndLimitMailboxSelection (selectMatching now scope request (some 1) db).selected (some 1)).head? =
        ((engineRows now scope request db).head?.filter (leftAlone request db)).map pick := by
  obtain ⟨pick, hpick, hselected⟩ := h.selectMatching_one hs
  refine ⟨pick, hpick, ?_⟩
  rw [hselected, sortAndLimitMailboxSelection, limited]
  cases engineRows now scope request db with
  | nil =>
    rw [take_nil, filter_nil, map_nil, mergeSort_nil]
    rfl
  | cons row rest =>
    rw [take_succ_cons, take_zero, head?_cons, filter_singleton]
    cases hleft : leftAlone request db row with
    | false =>
      rw [filter_some_neg (by rw [hleft]), cond_false, map_nil, mergeSort_nil]
      rfl
    | true =>
      rw [filter_some_pos hleft, cond_true, map_singleton, mergeSort_singleton]
      rfl

theorem firstAlike_iff (hs : MailSound db) {pick : MailRow → SelectedMailboxMessage}
    (hpick : ∀ row, (pick row).messageKey = row.messageKey ∧
      (pick row).envelope.messageId = (db.messageOf row).envelope.messageId) :
    ((((engineRows now scope request db).head?.filter (leftAlone request db)).map pick).map
        SelectedMailboxMessage.messageKey = (engineFirst now scope request db).map SelectedMailboxMessage.messageKey ∧
      ((((engineRows now scope request db).head?.filter (leftAlone request db)).map pick).bind
        (fun message => message.envelope.messageId)) =
        (engineFirst now scope request db).bind (fun message => message.envelope.messageId)) ↔
      FirstAlike now scope request db := by
  have hlive : ∀ row ∈ engineRows now scope request db, row ∈ liveRows now scope db :=
    fun row hrow => mem_sortedRows.mp (mem_of_mem_filter hrow)
  rw [engineFirst_eq hs, FirstAlike]
  cases hfirst : ((engineRows now scope request db).mergeSort displayOrder).head? with
  | none =>
    have hnone : engineRows now scope request db = [] := by
      have hlength := congrArg List.length (head?_eq_none_iff.mp hfirst)
      rw [length_mergeSort] at hlength
      exact length_eq_zero_iff.mp hlength
    rw [hnone]
    exact iff_of_true ⟨rfl, rfl⟩ (fun row hrow => nomatch hrow)
  | some first =>
    obtain ⟨hmem, hbefore⟩ := SortLimit.head?_mergeSort displayOrder_trans displayOrder_total hfirst
    obtain ⟨row, rest, hrows⟩ := exists_cons_of_ne_nil (ne_nil_of_mem hmem)
    have hrow : row ∈ engineRows now scope request db := by rw [hrows]; exact mem_cons_self
    rw [hrows, head?_cons, ← hrows]
    constructor
    · rintro ⟨hkeys, -⟩ _ hhead
      obtain rfl := some.inj hhead
      cases hleft : leftAlone request db row with
      | false =>
        rw [filter_some_neg (by rw [hleft])] at hkeys
        cases hkeys
      | true =>
        rw [filter_some_pos hleft] at hkeys
        have hkey : row.messageKey = first.messageKey :=
          (hpick row).1.symm.trans ((some.inj hkeys).trans enginePick_messageKey)
        obtain rfl := eq_of_messageKey (hlive first hmem) (hlive row hrow) hkey
        exact ⟨rfl, hbefore⟩
    · intro halike
      obtain ⟨hleft, horder⟩ := halike row rfl
      obtain rfl := displayOrder_antisymm (hlive row hrow) (hlive first hmem) (horder first hmem) (hbefore row hrow)
      rw [filter_some_pos hleft]
      exact ⟨congrArg some ((hpick row).1.trans enginePick_messageKey.symm),
        (hpick row).2.trans (enginePick_place).2.symm⟩

end First

end AtmCore
