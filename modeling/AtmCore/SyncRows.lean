import AtmCore.DurableTexts

/-! The synchronous listing, row by row. The metadata of a message say as much as the message does to the thread index
and to the filters, so the listing takes the ends of threads among its rows that pass the filters, and it lists them
in the order of display where no two of them have one instant and no id. -/

namespace AtmCore

open Fallible List Option Function

section Metadata

variable {now : IsoTimestamp} {message : MessageEnvelope}

theorem metadataView_view : ThreadView metadataView := ⟨fun _ => rfl, fun _ => rfl, fun _ => rfl⟩

theorem deriveAckRequirement_metadataView :
    deriveAckRequirement (metadataView message) = deriveAckRequirement message := by
  have hreq : (metadataView message).requiresAck = message.requiresAck := by
    rw [metadataView, deriveAckRequirement]
    cases message.requiresAck <;> cases message.acknowledgedAt <;> rfl
  rw [deriveAckRequirement, hreq, deriveAckRequirement]
  rfl

theorem classifyMessage_metadataView : classifyMessage (metadataView message) = classifyMessage message := by
  rw [classifyMessage, deriveAckState, deriveAckRequirement_metadataView, classifyMessage, deriveAckState]
  rfl

theorem listRowFromMessage_metadataView {text : String} :
    listRowFromMessage { metadataView message with text := text } = listRowFromMessage message := by
  have hpend : deriveAckRequirement { metadataView message with text := text } = deriveAckRequirement message :=
    deriveAckRequirement_metadataView
  rw [listRowFromMessage, hpend]
  rfl

theorem selects_metadataView {index : ThreadIndex} {request : MailboxSelectionRequest} :
    (index.view metadataView).selects now request.withoutContains (metadataView message) =
      index.selects now request.withoutContains message := by
  have hends : (index.view metadataView).ends (metadataView message) = index.ends message := by
    rw [ThreadIndex.ends, ThreadIndex.ends]
    congr 1
    funext id
    exact metadataView_view.isTerminal index id
  have hpass : request.withoutContains.passes now ((index.view metadataView).shown (metadataView message)) =
      request.withoutContains.passes now (index.shown message) := by
    show request.withoutContains.passes now (metadataView message) = request.withoutContains.passes now message
    rw [MailboxSelectionRequest.passes, classifyMessage_metadataView, MailboxSelectionRequest.passes]
    rfl
  rw [ThreadIndex.selects, hends, hpass, ThreadIndex.selects]

end Metadata

section Selection

variable {now : IsoTimestamp} {query : ListQuery} {candidates : List MailboxSelectionCandidate}

/-- The selection of a listing, candidate by candidate. -/
theorem selectListed_eq (huniq : UniqueIds (candidateIndex candidates).messages) :
    selectListed now query candidates = (candidates.zipIdx.filter (fun candidate =>
        (candidateIndex candidates).selects now query.selection.withoutContains candidate.1.envelope)).map
        (logicalMessage (candidateIndex candidates)) := by
  rw [selectListed, logicalCurrentMessages_classifyCandidates huniq, applySelectionMode, applyTaskFilter,
    applyTimestampFilter, applySenderFilter]
  simp only [List.filter_filter, List.filter_map]
  congr 1
  refine filter_congr (fun candidate _ => ?_)
  rw [ThreadIndex.selects, MailboxSelectionRequest.passes]
  simp only [matchesParticipantFilter, comp_apply, logicalMessage, ThreadIndex.shown, ListQuery.selection,
    all_none, Bool.and_true]
  ac_rfl

end Selection

variable {limit : Option Nat} {row : MailRow} {α β : Type} {xs : List α}

section Rows

variable {now : IsoTimestamp} {scope : MailboxScope} {query : ListQuery} {db : Db} {rows : List MailRow}

theorem listMessages_limited :
    listMessages now ⟨scope, none, none, limit⟩ db = (limited limit (sortedRows now scope db)).map db.messageOf :=
  listMessages_all

/-- What a listing without a text filter takes of the rows it has. -/
def listTakes (now : IsoTimestamp) (query : ListQuery) (db : Db) (rows : List MailRow) (row : MailRow) : Bool :=
  (candidateIndex (rows.map db.candidateOf)).selects now query.selection.withoutContains (db.messageOf row).envelope

def listHolds (query : ListQuery) (db : Db) (rows : List MailRow) (row : MailRow) : Bool :=
  query.containsFilter.all (fun needle => textContainsNeedle (db.messageOf row).envelope.summary needle ||
    textContainsNeedle (some ((candidateIndex (rows.map db.candidateOf)).logicalText (db.messageOf row).envelope))
      needle)

/-- The rows that a listing takes, with their places, before its text filter and after it. -/
abbrev takenRows (now : IsoTimestamp) (query : ListQuery) (db : Db) (rows : List MailRow) : List (MailRow × Nat) :=
  rows.zipIdx.filter (fun row => listTakes now query db rows row.1)

abbrev listedRows (now : IsoTimestamp) (query : ListQuery) (db : Db) (rows : List MailRow) : List (MailRow × Nat) :=
  rows.zipIdx.filter (fun row => listTakes now query db rows row.1 && listHolds query db rows row.1)

def Db.listedOf (db : Db) (rows : List MailRow) (row : MailRow × Nat) : ClassifiedMessage :=
  logicalMessage (candidateIndex (rows.map (fun row => metadataCandidate (db.messageOf row))))
    (metadataCandidate (db.messageOf row.1), row.2)

def Db.listRow (db : Db) (row : MailRow) : ListRow := listRowFromMessage (db.messageOf row).envelope

theorem candidateIndex_metadata : candidateIndex (rows.map (fun row => metadataCandidate (db.messageOf row))) =
    (candidateIndex (rows.map db.candidateOf)).view metadataView := by
  rw [ThreadIndex.view, candidateIndex_messages, candidateIndex, List.map_map, List.map_map]
  rfl

theorem listedIndex_eq : listedIndex (rows.map db.messageOf) = candidateIndex (rows.map db.candidateOf) := by
  rw [listedIndex, candidateIndex, List.map_map, List.map_map]
  rfl

theorem uniqueIds_metadata (hs : MailSound db) (hrows : RowsOf scope rows db) :
    UniqueIds (candidateIndex (rows.map (fun row => metadataCandidate (db.messageOf row)))).messages := by
  rw [candidateIndex_metadata, ThreadIndex.view]
  intro _ hmem _ hmem' id hid hid'
  obtain ⟨message, hmsg, rfl⟩ := List.mem_map.mp hmem
  obtain ⟨other, hother, rfl⟩ := List.mem_map.mp hmem'
  rw [uniqueIds_candidates hs hrows message hmsg other hother id hid hid']

theorem selectListed_rows (hs : MailSound db) (hrows : RowsOf scope rows db) :
    selectListed now query ((rows.map db.messageOf).map metadataCandidate) =
      (takenRows now query db rows).map (db.listedOf rows) := by
  have hcands : (rows.map db.messageOf).map metadataCandidate =
      rows.map (fun row => metadataCandidate (db.messageOf row)) := List.map_map ..
  rw [hcands, selectListed_eq (uniqueIds_metadata hs hrows), zipIdx_map, List.filter_map, List.map_map]
  refine (congrArg (List.map _) (filter_congr (fun row _ => ?_))).trans (rfl : (takenRows now query db rows).map _ = _)
  rw [comp_apply, candidateIndex_metadata]
  exact selects_metadataView

/-- The verdict of the text filter on a row at the end of its thread. -/
theorem matchesDurableText_eq (hs : MailSound db) (hrows : RowsOf scope rows db) {port : RenderPort}
    {row : MailRow × Nat} (hrow : row ∈ rows.zipIdx) (hplain : RendersPlain port row.1.messageKey db) {needle : String}
    (hfound : textContainsNeedle (db.messageOf row.1).envelope.summary needle = false →
      FoundIn scope (rows.map db.messageOf) db (db.messageOf row.1))
    (hends : (candidateIndex (rows.map db.candidateOf)).ends (db.messageOf row.1).envelope = true) :
    matchesDurableText port scope (rows.map db.messageOf) needle db (db.listedOf rows row) =
      .ok (textContainsNeedle (db.messageOf row.1).envelope.summary needle || textContainsNeedle
        (some ((candidateIndex (rows.map db.candidateOf)).logicalText (db.messageOf row.1).envelope)) needle) := by
  have hmem : row.1 ∈ rows := fst_mem_of_mem_zipIdx hrow
  have hplace : (rows.map db.messageOf)[(db.listedOf rows row).sourceIndex]? = some (db.messageOf row.1) := by
    rw [getElem?_map]
    exact (congrArg (Option.map db.messageOf) (mk_mem_zipIdx_iff_getElem?.mp hrow)).trans rfl
  rw [matchesDurableText, hplace]
  dsimp only
  cases hsummary : textContainsNeedle (db.messageOf row.1).envelope.summary needle with
  | true => rw [if_pos rfl, Bool.true_or]
  | false =>
    have htext : loadDurableMessageText port scope (rows.map db.messageOf) (db.listedOf rows row).envelope
        (db.messageOf row.1).messageKey db =
          .ok ((candidateIndex (rows.map db.candidateOf)).logicalText (db.messageOf row.1).envelope) := by
      rw [← listedIndex_eq] at hends ⊢
      refine loadDurableMessageText_eq ?_ (List.mem_map_of_mem hmem) (hfound hsummary) hends hplain
      rw [listedIndex_eq]
      exact unbranched_rows hs hrows
    rw [if_neg Bool.false_ne_true, htext, Fallible.bind_ok, Bool.false_or]
    rfl

theorem filterMap_map_ite (p : α → Bool) (g : α → β) :
    (xs.map (fun x => if p x then some (g x) else none)).filterMap id = (xs.filter p).map g := by
  induction xs with
  | nil => rfl
  | cons x xs ih =>
    cases hx : p x with
    | false =>
      rw [map_cons, hx, if_neg Bool.false_ne_true, filter_cons_of_neg (by rw [hx]; exact Bool.false_ne_true)]
      exact ih
    | true =>
      rw [map_cons, hx, if_pos rfl, filter_cons_of_pos hx, map_cons, ← ih]
      rfl

/-- What the text filter leaves of the selected rows. -/
theorem filterContainsCandidates_rows (hs : MailSound db) (hrows : RowsOf scope rows db) {port : RenderPort}
    (hplain : ∀ row ∈ rows, listTakes now query db rows row = true → RendersPlain port row.messageKey db)
    (hfound : ∀ needle, query.containsFilter = some needle → ∀ row ∈ rows, listTakes now query db rows row = true →
      textContainsNeedle (db.messageOf row).envelope.summary needle = false →
        FoundIn scope (rows.map db.messageOf) db (db.messageOf row)) :
    filterContainsCandidates port scope (rows.map db.messageOf) query.containsFilter db
        ((takenRows now query db rows).map (db.listedOf rows)) =
      .ok ((listedRows now query db rows).map (db.listedOf rows)) := by
  cases hneed : query.containsFilter with
  | none =>
    have hholds : ∀ row, listHolds query db rows row = true := by
      intro row
      rw [listHolds, hneed, all_none]
    simp only [listedRows, hholds, Bool.and_true]
    rfl
  | some needle =>
    have hverdict : ∀ row ∈ takenRows now query db rows,
        (do
          let taken ← matchesDurableText port scope (rows.map db.messageOf) needle db (db.listedOf rows row)
          return if taken then some (db.listedOf rows row) else none) =
          .ok (if listHolds query db rows row.1 then some (db.listedOf rows row) else none) := by
      intro row hrow
      obtain ⟨hrow, htakes⟩ := mem_filter.mp hrow
      have hmem := fst_mem_of_mem_zipIdx hrow
      have hends := htakes
      rw [listTakes, ThreadIndex.selects, Bool.and_eq_true] at hends
      rw [listHolds, hneed, all_some, matchesDurableText_eq hs hrows hrow (hplain row.1 hmem htakes)
        (hfound needle hneed row.1 hmem htakes) hends.1]
      rfl
    have hboth : listedRows now query db rows = (takenRows now query db rows).filter
          (fun row => listHolds query db rows row.1) := by
      rw [List.filter_filter]
      exact filter_congr (fun row _ => Bool.and_comm _ _)
    unfold filterContainsCandidates
    simp only [mapM_map, comp_def]
    rw [mapM_eq_ok_map hverdict, Fallible.bind_ok, filterMap_map_ite, hboth]
    rfl

end Rows

/-- The rows that a listing takes of the rows it has. -/
def taken (now : IsoTimestamp) (query : ListQuery) (db : Db) (rows : List MailRow) : List MailRow :=
  rows.filter (fun row => listTakes now query db rows row && listHolds query db rows row)

/-- Of two messages of one instant, one has an id that the other has not. -/
def IdsApart (rows : List MailRow) : Prop :=
  ∀ row ∈ rows, ∀ other ∈ rows, row ≠ other → row.messageAt.nanos = other.messageAt.nanos →
    idRank row.messageId ≠ idRank other.messageId

section Listing

variable {now : IsoTimestamp} {scope : MailboxScope} {query : ListQuery} {db : Db} {port : RenderPort}

theorem limited_map (g : α → β) : limited limit (xs.map g) = (limited limit xs).map g := by
  cases limit with
  | none => rfl
  | some n => exact map_take.symm

theorem limited_sublist : (limited limit xs).Sublist xs := by
  cases limit with
  | none => exact List.Sublist.refl _
  | some n => exact take_sublist n xs

/-- Where ids tell messages of one instant apart, the order of the listing is the order of display. -/
theorem listedBefore_listedOf (hs : MailSound db) {rows : List MailRow} (hrows : RowsOf scope rows db)
    (hnodup : rows.Nodup) (hapart : IdsApart (taken now query db rows)) {row other : MailRow × Nat}
    (hrow : row ∈ listedRows now query db rows) (hother : other ∈ listedRows now query db rows) :
    displayOrder row.1 other.1 = listedBefore (db.listedOf rows row) (db.listedOf rows other) := by
  obtain ⟨hrow, hlisted⟩ := mem_filter.mp hrow
  obtain ⟨hother, hlisted'⟩ := mem_filter.mp hother
  have hmem := fst_mem_of_mem_zipIdx hrow
  have hmem' := fst_mem_of_mem_zipIdx hother
  have hplace : ∀ listed : MailRow × Nat, listed.1 ∈ rows →
      (db.listedOf rows listed).envelope.timestamp = listed.1.messageAt ∧
        (db.listedOf rows listed).envelope.messageId = listed.1.messageId := fun listed hlisted =>
    ⟨messageOf_timestamp hs (hrows _ hlisted).1, messageOf_messageId hs (hrows _ hlisted).1⟩
  rw [displayOrder, listedBefore, (hplace row hmem).1, (hplace row hmem).2, (hplace other hmem').1,
    (hplace other hmem').2]
  by_cases heq : row.1 = other.1
  · have hindex : row.2 = other.2 := by
      have hat := mk_mem_zipIdx_iff_getElem?.mp hrow
      have hat' := mk_mem_zipIdx_iff_getElem?.mp hother
      rw [← heq] at hat'
      exact (getElem?_inj (List.getElem?_eq_some_iff.mp hat).1 hnodup).mp (hat.trans hat'.symm)
    have hsource : (db.listedOf rows other).sourceIndex ≤ (db.listedOf rows row).sourceIndex := hindex.ge
    simp [heq, hsource]
  · have hrank := hapart row.1 (mem_filter.mpr ⟨hmem, hlisted⟩) other.1 (mem_filter.mpr ⟨hmem', hlisted'⟩) heq
    refine decide_eq_decide.mpr (or_congr_right (and_congr_right (fun hinstant => or_congr_right ?_)))
    exact iff_of_false (fun h => hrank hinstant.symm h.1.symm) (fun h => hrank hinstant.symm h.1.symm)

theorem sortedRows_nodup : (sortedRows now scope db).Nodup :=
  ((mergeSort_perm _ _).nodup_iff).mpr (db.mailMessages.nodup.of_map.filter _)

/-- The rows of a listing: those of its rows that it takes, in the order of display and to its limit. -/
theorem listMail_rows (hs : MailSound db) {rows : List MailRow}
    (hlimit : rows = limited (metadataLimitForList query) (sortedRows now query.scope db))
    (hapart : IdsApart (taken now query db rows))
    (hplain : ∀ row ∈ rows, listTakes now query db rows row = true → RendersPlain port row.messageKey db)
    (hfound : ∀ needle, query.containsFilter = some needle → ∀ row ∈ rows, listTakes now query db rows row = true →
      textContainsNeedle (db.messageOf row).envelope.summary needle = false →
        FoundIn query.scope (rows.map db.messageOf) db (db.messageOf row)) :
    (listMail port now query db).map ListOutcome.rows =
      .ok ((limited query.limit ((taken now query db rows).mergeSort displayOrder)).map db.listRow) := by
  have hsub : rows.Sublist (sortedRows now query.scope db) := hlimit ▸ limited_sublist
  have hrows : RowsOf query.scope rows db := fun row hrow => (mem_liveRows.mp (mem_sortedRows.mp (hsub.subset hrow))).1
  have hmessages : listMessages now ⟨query.scope, none, none, metadataLimitForList query⟩ db =
    rows.map db.messageOf := by
    rw [listMessages_limited, hlimit]
  have hsorted : sortAndLimitSelected ((listedRows now query db rows).map (db.listedOf rows)) query.limit =
      (limited query.limit ((listedRows now query db rows).mergeSort
        (fun row other => displayOrder row.1 other.1))).map (db.listedOf rows) := by
    rw [sortAndLimitSelected, ← limited_map]
    refine congrArg (limited query.limit) (map_mergeSort (fun row hrow other hother => ?_)).symm
    exact listedBefore_listedOf hs hrows (sortedRows_nodup.sublist hsub) hapart hrow hother
  have htaken : ((listedRows now query db rows).mergeSort (fun row other => displayOrder row.1 other.1)).map Prod.fst =
      (taken now query db rows).mergeSort displayOrder := by
    have hfirst : (listedRows now query db rows).map Prod.fst = taken now query db rows :=
      (filter_map_zipIdx_fst (fun row => listTakes now query db rows row && listHolds query db rows row) id).trans
        (List.map_id _)
    rw [← hfirst]
    exact map_mergeSort (fun _ _ _ _ => rfl)
  -- and nothing of them is rendered
  have hrender : ((limited query.limit ((listedRows now query db rows).mergeSort
      (fun row other => displayOrder row.1 other.1))).map (db.listedOf rows)).mapM
        (fun message => liftListing (renderMessageBody port message.messageKey message.envelope db)) =
      .ok ((limited query.limit ((listedRows now query db rows).mergeSort
        (fun row other => displayOrder row.1 other.1))).map (fun row => (db.listedOf rows row).envelope)) := by
    rw [mapM_map]
    refine mapM_eq_ok_map (fun row hrow => ?_)
    obtain ⟨hrow, hlisted⟩ := mem_filter.mp (mem_mergeSort.mp ((limited_sublist).subset hrow))
    rw [comp_apply]
    exact congrArg liftListing (hplain row.1 (fst_mem_of_mem_zipIdx hrow)
      (Bool.and_eq_true_iff.mp hlisted).1).renderMessageBody_eq
  have hlistRow : ∀ row : MailRow × Nat, listRowFromMessage (db.listedOf rows row).envelope = db.listRow row.1 :=
    fun row => listRowFromMessage_metadataView
  rw [listMail]
  rw [hmessages, selectListed_rows hs hrows, filterContainsCandidates_rows hs hrows hplain hfound, Fallible.bind_ok,
    hsorted, hrender, Fallible.bind_ok]
  refine congrArg Except.ok ?_
  rw [List.map_map, ← htaken, ← limited_map, ← limited_map, List.map_map]
  exact congrArg (limited query.limit) (map_congr_left (fun row _ => hlistRow row))

end Listing

end AtmCore
