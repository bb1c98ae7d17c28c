import AtmCore.EngineRows
import AtmCore.ReaderCounts

/-! The mailbox of the daemon. A command is compiled to the filters of one query, which takes only the ends of threads;
what the query returns goes through the selection engine once more. A read asks the query for one row, a list for as
many as its limit says if it has no other filter. -/

namespace AtmCore

open List

def ReadSelection.searched : ReadSelection → SearchMailboxSelection
  | .actionable => .actionable
  | .unread => .unread
  | .pendingAck => .pendingAck
  | .all => .all

def mailboxFilters (scope : MailboxScope) (request : MailboxSelectionRequest) : SearchFilters where
  mailbox := scope
  fromAgent := request.senderFilter
  messageId := request.messageIdFilter
  taskId := request.taskFilter
  contains := request.containsFilter
  since := request.timestampFilter
  currentOnly := true
  mailboxSelection := some request.selectionMode.searched

def selectMatching (now : IsoTimestamp) (scope : MailboxScope) (request : MailboxSelectionRequest) (limit : Option Nat)
    (db : Db) : MailboxSelectionResult :=
  let messages := listMatchingMessages now (mailboxFilters scope request) limit db
  { selectMailboxCandidates now (messages.map selectionCandidate) request with
    bucketCounts := readerBucketCounts now scope db }

/-- The selection of a read, and how many messages match. -/
def selectOneForRead (now : IsoTimestamp) (scope : MailboxScope) (request : MailboxSelectionRequest) (db : Db) :
    MailboxSelectionResult × Nat :=
  (selectMatching now scope request (some 1) db, countMessages now (mailboxFilters scope request) db)

/-- `ReadOutcome`, of a command that does not wait. -/
structure ReadOutcome where
  team : TeamName
  agent : AgentName
  selectionMode : ReadSelection
  count : Nat
  message : Option SelectedMailboxMessage
  selectedMessageId : Option AtmMessageId
  matchCount : Nat
  additionalMatchCount : Nat
  bucketCounts : MailboxBucketCounts

def completeAsyncRead (scope : MailboxScope) (request : MailboxSelectionRequest) (selection : MailboxSelectionResult)
    (matchCount : Nat) : ReadOutcome where
  team := scope.team
  agent := scope.agent
  selectionMode := request.selectionMode
  count := if selection.selected.head?.isSome then 1 else 0
  message := selection.selected.head?
  selectedMessageId := selection.selected.head?.bind (fun message => message.envelope.messageId)
  matchCount := matchCount
  additionalMatchCount := matchCount - 1
  bucketCounts := selection.bucketCounts

def readCommand (now : IsoTimestamp) (scope : MailboxScope) (request : MailboxSelectionRequest) (db : Db) :
    ReadOutcome :=
  let (selection, matchCount) := selectOneForRead now scope request db
  completeAsyncRead scope request
    { selection with selected := sortAndLimitMailboxSelection selection.selected (some 1) } matchCount

/-- The prepared list command: a list names no message id and no participant. -/
structure AsyncListCommand where
  scope : MailboxScope
  selection : MailboxSelectionRequest
  limit : Option Nat

def AsyncListCommand.pushdownLimit (command : AsyncListCommand) : Option Nat :=
  if command.selection.selectionMode = .all ∧ command.selection.senderFilter = none ∧
      command.selection.participantFilter.isNone ∧ command.selection.timestampFilter = none ∧
      command.selection.taskFilter = none ∧ command.selection.containsFilter = none ∧
      command.selection.messageIdFilter = none then command.limit
  else none

structure ListRow where
  messageId : Option AtmMessageId
  summary : String
  «from» : AgentName
  timestamp : IsoTimestamp
  read : Bool
  pendingAck : Bool
  taskId : Option TaskId
  deriving DecidableEq

def listRowFromMessage (message : MessageEnvelope) : ListRow where
  messageId := message.messageId
  summary := message.summary.getD ""
  «from» := message.from
  timestamp := message.timestamp
  read := message.read
  pendingAck := decide (deriveAckRequirement message = .requiredPending)
  taskId := message.taskId

structure ListOutcome where
  team : TeamName
  agent : AgentName
  selectionMode : ReadSelection
  historyCollapsed : Bool
  count : Nat
  rows : List ListRow
  bucketCounts : MailboxBucketCounts

def completeAsyncList (command : AsyncListCommand) (selection : MailboxSelectionResult) : ListOutcome :=
  let rows := (sortAndLimitMailboxSelection selection.selected command.limit).map
    (fun message => listRowFromMessage message.envelope)
  { team := command.scope.team
    agent := command.scope.agent
    selectionMode := command.selection.selectionMode
    historyCollapsed := decide (command.selection.selectionMode ≠ .all) && decide (0 < selection.bucketCounts.history)
    count := rows.length
    rows := rows
    bucketCounts := selection.bucketCounts }

def listCommand (now : IsoTimestamp) (command : AsyncListCommand) (db : Db) : ListOutcome :=
  completeAsyncList command (selectMatching now command.scope command.selection command.pushdownLimit db)

section Matching

variable {now : IsoTimestamp} {scope : MailboxScope} {request : MailboxSelectionRequest} {limit : Option Nat} {db : Db}
  {row : MailRow}

/-- The rows that the query takes, with the newest first. -/
def matchingRows (now : IsoTimestamp) (scope : MailboxScope) (request : MailboxSelectionRequest) (limit : Option Nat)
    (db : Db) : List MailRow :=
  limited limit ((db.mailMessages.rows.filter ((mailboxFilters scope request).admits now db)).mergeSort newestFirst)

theorem mem_limited {α : Type} {x : α} {xs : List α} (h : x ∈ limited limit xs) : x ∈ xs := by
  cases limit with
  | none => exact h
  | some n => exact mem_of_mem_take h

theorem mem_matchingRows (h : row ∈ matchingRows now scope request limit db) :
    row ∈ db.mailMessages.rows ∧ (mailboxFilters scope request).admits now db row = true :=
  mem_filter.mp (mem_mergeSort.mp (mem_limited h))

theorem mem_matchingRows_none : row ∈ matchingRows now scope request none db ↔
    row ∈ db.mailMessages.rows ∧ (mailboxFilters scope request).admits now db row = true :=
  mem_mergeSort.trans mem_filter

theorem admits_iff : (mailboxFilters scope request).admits now db row = true ↔
    row.within scope = true ∧ SearchFilters.live now db row = true ∧ SearchFilters.current now db row = true ∧
      request.senderFilter.all (fun sender => decide (row.fromAgent = sender)) = true ∧
      request.messageIdFilter.all (fun id => decide (row.messageId = some id)) = true ∧
      request.taskFilter.all (fun taskId => decide (row.envelopeJson.taskId = some taskId)) = true ∧
      request.timestampFilter.all (fun since => decide (since.nanos ≤ row.messageAt.nanos)) = true ∧
      SearchFilters.selects request.selectionMode.searched db row = true ∧
      request.containsFilter.all (fun needle => containsIgnoreAsciiCase (row.summary.getD "") needle ||
        containsIgnoreAsciiCase (row.messageText.getD "") needle) = true := by
  simp only [SearchFilters.admits, mailboxFilters, Bool.and_eq_true, Option.all_some, Bool.not_true, Bool.false_or]
  tauto

/-- A query takes no message whose successor it could take. -/
theorem apart_matchingRows (hs : MailSound db) :
    (candidateIndex ((matchingRows now scope request limit db).map db.candidateOf)).Apart := by
  rw [ThreadIndex.Apart, candidateIndex_messages]
  intro _ hmem _ hmem' id hpar hid
  obtain ⟨row, hrow, rfl⟩ := List.mem_map.mp hmem
  obtain ⟨successor, hsucc, rfl⟩ := List.mem_map.mp hmem'
  obtain ⟨hst, hadmits⟩ := mem_matchingRows hrow
  obtain ⟨hst', hadmits'⟩ := mem_matchingRows hsucc
  obtain ⟨hwith, -, hcur, -⟩ := admits_iff.mp hadmits
  obtain ⟨hwith', hlive', -⟩ := admits_iff.mp hadmits'
  obtain ⟨hteam, hag⟩ := MailRow.within_eq_true.mp hwith
  obtain ⟨hteam', hag'⟩ := MailRow.within_eq_true.mp hwith'
  rw [messageOf_messageId hs hst] at hid
  rw [messageOf_parentMessageId hs hst'] at hpar
  rw [SearchFilters.current, hid, Option.all_some, Bool.not_eq_true', List.any_eq_false] at hcur
  refine hcur successor hst' ?_
  simp only [Bool.and_eq_true, decide_eq_true_eq]
  exact ⟨⟨⟨hteam'.trans hteam.symm, hag'.trans hag.symm⟩, hpar⟩, hlive'⟩

/-- The selected message of a row that is looked at alone. -/
def Db.selectedAlone (db : Db) (row : MailRow) : SelectedMailboxMessage where
  messageKey := row.messageKey
  bucket := displayBucketForClass (classifyMessage (db.messageOf row).envelope)
  «class» := classifyMessage (db.messageOf row).envelope
  envelope := alone (db.messageOf row).envelope

theorem selectMatching_rows : (selectMatching now scope request limit db).selected = (selectMailboxCandidates now
    ((matchingRows now scope request limit db).map db.candidateOf) request).selected :=
  congrArg (fun candidates => (selectMailboxCandidates now candidates request).selected) (List.map_map ..)

/-- Of the rows of the query, the engine takes and leaves each by itself. -/
theorem selectMatching_selected (hs : MailSound db) (hid : request.messageIdFilter = none) :
    (selectMatching now scope request limit db).selected = ((matchingRows now scope request limit db).filter
        (fun row => request.passes now (alone (db.messageOf row).envelope))).map db.selectedAlone := by
  have hap : (candidateIndex ((matchingRows now scope request limit db).map db.candidateOf)).Apart :=
    apart_matchingRows hs
  have huniq : UniqueIds (candidateIndex ((matchingRows now scope request limit db).map db.candidateOf)).messages :=
    uniqueIds_candidates hs (fun _ hrow => ⟨(mem_matchingRows hrow).1, (admits_iff.mp (mem_matchingRows hrow).2).1⟩)
  have hmem : ∀ row ∈ matchingRows now scope request limit db, (db.messageOf row).envelope ∈
      (candidateIndex ((matchingRows now scope request limit db).map db.candidateOf)).messages := by
    intro row hrow
    rw [candidateIndex_messages]
    exact List.mem_map_of_mem hrow
  rw [selectMatching_rows, selected_of_no_id huniq hid, List.filter_map, List.map_map]
  refine (congrArg (List.map _) (filter_congr (fun row hrow => hap.selects huniq (hmem row hrow) now request))).trans
    (map_congr_left (fun row hrow => ?_))
  rw [Function.comp_apply, ThreadIndex.selected, Db.selectedAlone]
  have hshown := hap.shown huniq (hmem row (mem_of_mem_filter hrow))
  rw [Db.candidateOf, selectionCandidate, hshown]
  rfl

end Matching

end AtmCore
