import AtmCore.SyncRows

/-! Limits and paths of a listing. The synchronous path gives the limit of a query without filters to the storage,
before it reduces threads and selects; the daemon does so only where nothing is selected. Where both paths take the
same messages and nothing behind such a limit belongs before it, the listing with a limit is the beginning of the
listing without one. -/

namespace AtmCore

open List

/-- A query whose limit the synchronous path gives to the storage. -/
def ListQuery.unfiltered (query : ListQuery) : Prop :=
  query.senderFilter = none ∧ query.timestampFilter = none ∧ query.taskFilter = none ∧ query.containsFilter = none

def listing (now : IsoTimestamp) (query : ListQuery) (db : Db) : List MailRow :=
  taken now query db (sortedRows now query.scope db)

/-- When the limit and the path of a listing make no difference. -/
structure ListsAlike (port : RenderPort) (now : IsoTimestamp) (query : ListQuery) (n : Nat) (db : Db) : Prop where
  /-- The query of the daemon and the look at each message alone take what the synchronous listing takes. -/
  takes : ∀ row ∈ liveRows now query.scope db, ((mailboxFilters query.scope query.selection).admits now db row &&
      query.selection.passes now (alone (db.messageOf row).envelope)) =
    (listTakes now query db (sortedRows now query.scope db) row &&
      listHolds query db (sortedRows now query.scope db) row)
  /-- Ids tell listed messages of one instant apart. -/
  ids : IdsApart (listing now query db)
  /-- No message that passes the other filters has a template to render. -/
  plain : ∀ row ∈ liveRows now query.scope db, listTakes now query db (sortedRows now query.scope db) row = true →
    RendersPlain port row.messageKey db
  /-- A text filter finds the messages of a thread by their keys where it needs their texts. -/
  found : ∀ needle, query.containsFilter = some needle → ∀ row ∈ liveRows now query.scope db,
    listTakes now query db (sortedRows now query.scope db) row = true →
    textContainsNeedle (db.messageOf row).envelope.summary needle = false →
      FoundIn query.scope ((sortedRows now query.scope db).map db.messageOf) db (db.messageOf row)
  /-- Without filters, each of the newest messages ends its thread among these just if it does among all; and if a
  message behind them is listed, then all of them are, and are displayed before it. -/
  newest : query.unfiltered →
    (∀ row ∈ (sortedRows now query.scope db).take n,
      listTakes now query db ((sortedRows now query.scope db).take n) row =
      listTakes now query db (sortedRows now query.scope db) row) ∧
    ∀ other ∈ (sortedRows now query.scope db).drop n,
      listTakes now query db (sortedRows now query.scope db) other = true →
      ∀ row ∈ (sortedRows now query.scope db).take n,
        listTakes now query db (sortedRows now query.scope db) row = true ∧ displayOrder row other = true

section Paths

variable {now : IsoTimestamp} {query : ListQuery} {db : Db} {port : RenderPort} {n : Nat} {row : MailRow}

/-- The rows of the daemon: those that the query takes and that pass alone, in the order of display and to the limit. -/
theorem listCommand_rows (hs : MailSound db) : (listCommand now (prepareAsyncList query) db).rows =
    (limited query.limit
      (((matchingRows now query.scope query.selection (prepareAsyncList query).pushdownLimit db).filter
      (fun row => query.selection.passes now (alone (db.messageOf row).envelope))).mergeSort displayOrder)).map
        db.listRow := by
  let rows := (matchingRows now query.scope query.selection (prepareAsyncList query).pushdownLimit db).filter
    (fun row => query.selection.passes now (alone (db.messageOf row).envelope))
  have hselected : (selectMatching now (prepareAsyncList query).scope (prepareAsyncList query).selection
      (prepareAsyncList query).pushdownLimit db).selected = rows.map db.selectedAlone := selectMatching_selected hs rfl
  have hplace : ∀ row ∈ rows, (db.selectedAlone row).envelope.timestamp = row.messageAt ∧
      (db.selectedAlone row).envelope.messageId = row.messageId := by
    intro row hrow
    have hstored := (mem_matchingRows (mem_of_mem_filter hrow)).1
    exact ⟨messageOf_timestamp hs hstored, messageOf_messageId hs hstored⟩
  have hsorted : (rows.map db.selectedAlone).mergeSort displayedBefore =
      (rows.mergeSort displayOrder).map db.selectedAlone := by
    refine (map_mergeSort (fun row hrow other hother => ?_)).symm
    rw [displayOrder, displayedBefore, (hplace row hrow).1, (hplace row hrow).2, (hplace other hother).1,
      (hplace other hother).2]
    rfl
  have hlimit : (prepareAsyncList query).limit = query.limit := rfl
  rw [listCommand, completeAsyncList, hselected, sortAndLimitMailboxSelection, hsorted, limited_map,
    List.map_map, hlimit]
  rfl

theorem displayOrder_antisymm_listing : ∀ a ∈ listing now query db, ∀ b ∈ listing now query db,
    displayOrder a b = true → displayOrder b a = true → a = b :=
  fun _ ha _ hb => displayOrder_antisymm (mem_sortedRows.mp (mem_of_mem_filter ha))
    (mem_sortedRows.mp (mem_of_mem_filter hb))

/-- Nothing is hidden from a listing of everything. -/
theorem passes_alone_of_all (hs : MailSound db) (hrow : row ∈ liveRows now query.scope db)
    (hmode : query.selectionMode = .all) (hunfiltered : query.unfiltered) :
    query.selection.passes now (alone (db.messageOf row).envelope) = true := by
  obtain ⟨⟨hstored, -⟩, hlive⟩ := mem_liveRows.mp hrow
  obtain ⟨state, hstate⟩ := hs.stated row hstored
  have hexpired : isExpiredEphemeral (alone (db.messageOf row).envelope) now = false := not_expired_of_live hstate hlive
  obtain ⟨hsender, hsince, htask, hcontains⟩ := hunfiltered
  simp [MailboxSelectionRequest.passes, ListQuery.selection, matchesParticipantFilter, hiddenForSelection, hexpired,
    ReadSelection.shows, hmode, hsender, hsince, htask, hcontains]

variable (h : ListsAlike port now query n db)
include h

/-- Where the storage limits, the newest messages that it gives are those that the listing begins with, and what comes
behind them is displayed behind them. -/
theorem ListsAlike.take_listing (hunfiltered : query.unfiltered) :
    taken now query db ((sortedRows now query.scope db).take n) = (listing now query db).take n ∧
      ∀ row ∈ (listing now query db).take n, ∀ other ∈ (listing now query db).drop n,
        displayOrder row other = true := by
  have hholds : ∀ rows row, listHolds query db rows row = true := by
    intro rows row
    rw [listHolds, hunfiltered.2.2.2, Option.all_none]
  obtain ⟨hsame, hbehind⟩ := h.newest hunfiltered
  simp only [listing, taken, hholds, Bool.and_true]
  generalize sortedRows now query.scope db = rows at hsame hbehind
  rw [filter_congr hsame]
  have hsplit : rows.filter (listTakes now query db rows) = (rows.take n).filter (listTakes now query db rows) ++
      (rows.drop n).filter (listTakes now query db rows) := by
    rw [← filter_append, take_append_drop]
  rw [hsplit]
  by_cases hnone : (rows.drop n).filter (listTakes now query db rows) = []
  · have hlength : ((rows.take n).filter (listTakes now query db rows)).length ≤ n :=
      (length_filter_le _ _).trans (length_take_le n rows)
    rw [hnone, append_nil, take_of_length_le hlength, drop_of_length_le hlength]
    exact ⟨rfl, fun row _ other hother => (by cases hother)⟩
  · obtain ⟨other, hother⟩ := exists_mem_of_ne_nil _ hnone
    obtain ⟨hother, htakes⟩ := mem_filter.mp hother
    have hall : (rows.take n).filter (listTakes now query db rows) = rows.take n :=
      filter_eq_self.mpr (fun row hrow => (hbehind other hother htakes row hrow).1)
    have hlength : (rows.take n).length = n := by
      rw [length_take, Nat.min_eq_left]
      have hpositive := length_pos_of_mem hother
      rw [length_drop] at hpositive
      omega
    rw [hall, take_left' hlength, drop_left' hlength]
    refine ⟨rfl, fun row hrow later hlater => ?_⟩
    obtain ⟨hlater, hlisted⟩ := mem_filter.mp hlater
    exact (hbehind later hlater hlisted row hrow).2

/-- So the storage may limit before the listing is sorted. -/
theorem ListsAlike.take_sorted (hunfiltered : query.unfiltered) :
    (((listing now query db).take n).mergeSort displayOrder).take n =
      ((listing now query db).mergeSort displayOrder).take n := by
  rw [SortLimit.take_mergeSort displayOrder_trans displayOrder_total displayOrder_antisymm_listing
    (h.take_listing hunfiltered).2]
  refine take_of_length_le ?_
  rw [length_mergeSort]
  exact length_take_le n _

variable (hs : MailSound db)
include hs

theorem listMail_none : (listMail port now { query with limit := none } db).map ListOutcome.rows =
    .ok (((listing now query db).mergeSort displayOrder).map db.listRow) := by
  have hlimit : metadataLimitForList { query with limit := none } = none := by
    rw [metadataLimitForList]
    split <;> rfl
  refine @listMail_rows now { query with limit := none } db port hs (sortedRows now query.scope db) ?_ h.ids
    (fun row hrow => h.plain row (mem_sortedRows.mp hrow))
    (fun needle hneedle row hrow => h.found needle hneedle row (mem_sortedRows.mp hrow))
  rw [hlimit]
  rfl

theorem listMail_some : (listMail port now { query with limit := some n } db).map ListOutcome.rows =
    .ok ((((listing now query db).mergeSort displayOrder).take n).map db.listRow) := by
  by_cases hunfiltered : query.unfiltered
  · have hlimit : metadataLimitForList { query with limit := some n } = some n := if_pos hunfiltered
    have htaken := (h.take_listing hunfiltered).1
    have hmem : ∀ row ∈ (sortedRows now query.scope db).take n, row ∈ liveRows now query.scope db :=
      fun row hrow => mem_sortedRows.mp (mem_of_mem_take hrow)
    have hrows := @listMail_rows now { query with limit := some n } db port hs ((sortedRows now query.scope db).take n)
      (by rw [hlimit]; rfl)
      (fun row hrow other hother => h.ids row (mem_of_mem_take (htaken ▸ hrow)) other
        (mem_of_mem_take (htaken ▸ hother)))
      (fun row hrow htakes => h.plain row (hmem row hrow)
        (((h.newest hunfiltered).1 row hrow).symm.trans htakes))
      (fun needle hneedle => absurd (hunfiltered.2.2.2.symm.trans hneedle) nofun)
    refine hrows.trans (congrArg (fun rows : List MailRow => Except.ok (rows.map db.listRow)) ?_)
    refine Eq.trans ?_ (h.take_sorted hunfiltered)
    exact congrArg (fun rows => (rows.mergeSort displayOrder).take n) htaken
  · have hlimit : metadataLimitForList { query with limit := some n } = none := if_neg hunfiltered
    exact @listMail_rows now { query with limit := some n } db port hs (sortedRows now query.scope db)
      (by rw [hlimit]; rfl) h.ids (fun row hrow => h.plain row (mem_sortedRows.mp hrow))
      (fun needle hneedle row hrow => h.found needle hneedle row (mem_sortedRows.mp hrow))

omit hs in
theorem ListsAlike.matchingRows_listing : (matchingRows now query.scope query.selection none db).filter
    (fun row => query.selection.passes now (alone (db.messageOf row).envelope)) = listing now query db := by
  rw [matchingRows_none_eq, List.filter_filter]
  refine filter_congr (fun row hrow => ?_)
  rw [Bool.and_comm]
  exact h.takes row (mem_sortedRows.mp hrow)

theorem listCommand_none : (listCommand now (prepareAsyncList { query with limit := none }) db).rows =
    ((listing now query db).mergeSort displayOrder).map db.listRow := by
  have hpushdown : (prepareAsyncList { query with limit := none }).pushdownLimit = none := by
    rw [AsyncListCommand.pushdownLimit]
    split <;> rfl
  have hrows := @listCommand_rows now { query with limit := none } db hs
  rw [hpushdown] at hrows
  rw [hrows, ← h.matchingRows_listing]
  rfl

theorem listCommand_some : (listCommand now (prepareAsyncList { query with limit := some n }) db).rows =
    (((listing now query db).mergeSort displayOrder).take n).map db.listRow := by
  have hrows := @listCommand_rows now { query with limit := some n } db hs
  rw [AsyncListCommand.pushdownLimit] at hrows
  rw [hrows]
  refine congrArg (List.map db.listRow) ?_
  split
  · next hpushed =>
    have hunfiltered : query.unfiltered := ⟨hpushed.2.1, hpushed.2.2.2.1, hpushed.2.2.2.2.1, hpushed.2.2.2.2.2.1⟩
    have hpasses : ∀ row ∈ matchingRows now query.scope query.selection none db,
        query.selection.passes now (alone (db.messageOf row).envelope) = true := by
      intro row hrow
      obtain ⟨hstored, hadmits⟩ := mem_matchingRows hrow
      exact passes_alone_of_all hs (mem_liveRows_of_admits hstored hadmits) hpushed.1 hunfiltered
    have hall : matchingRows now query.scope query.selection none db = listing now query db := by
      rw [← h.matchingRows_listing, filter_eq_self.mpr hpasses]
    refine Eq.trans ?_ (h.take_sorted hunfiltered)
    rw [← hall]
    exact congrArg (fun rows => (rows.mergeSort displayOrder).take n)
      (filter_eq_self.mpr (fun row hrow => hpasses row (mem_of_mem_take hrow)))
  · rw [← h.matchingRows_listing]
    rfl

end Paths

def sampleList (mode : ReadSelection) : ListQuery := ⟨sampleMailbox, mode, none, none, none, none, none⟩

/-- A message, and an older one to which details are added. -/
def sampleTwoThreads : List LifeStep := .store (sampleWrite (sampleText 3 "Write the docs")) :: sampleDetailThread

abbrev sampleMail : Db := live .accepting sampleTwoThreads .empty

theorem sampleMail_alike : ListsAlike samplePort ⟨100⟩ (sampleList .all) 1 sampleMail := by
  have hsorted : sortedRows ⟨100⟩ (sampleList .all).scope sampleMail = liveRows ⟨100⟩ sampleMailbox sampleMail :=
    mergeSort_of_pairwise (by decide +kernel)
  have hkeys : ∀ row ∈ liveRows ⟨100⟩ sampleMailbox sampleMail, ∀ other ∈ liveRows ⟨100⟩ sampleMailbox sampleMail,
      idRank row.messageId = idRank other.messageId → row.messageKey = other.messageKey := by decide +kernel
  have hlive : ∀ row ∈ listing ⟨100⟩ (sampleList .all) sampleMail, row ∈ liveRows ⟨100⟩ sampleMailbox sampleMail :=
    fun row hrow => mem_sortedRows.mp (mem_of_mem_filter hrow)
  refine ⟨?_, fun row hrow other hother hne _ hrank => ?_, fun _ _ _ hcatalog => (nomatch hcatalog),
    fun _ hneedle => (nomatch hneedle), fun _ => ?_⟩
  · rw [hsorted]
    decide +kernel
  · exact hne (eq_of_messageKey (hlive other hother) (hlive row hrow)
      (hkeys row (hlive row hrow) other (hlive other hother) hrank))
  · rw [hsorted]
    decide +kernel

/-- Two messages, of which the newer one is read. -/
def sampleReadAndUnread : List LifeStep :=
  let newer := sampleText 2 "Fix the parser"
  [.store (sampleWrite { newer with envelope := { newer.envelope with read := true } }),
    .store (sampleWrite (sampleText 1 "and the tests."))]

end AtmCore
