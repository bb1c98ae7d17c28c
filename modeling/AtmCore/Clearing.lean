import AtmCore.BucketCounts
import AtmCore.MailboxIsolation

/-! The clear of a mailbox. It lists the live messages, loads each one that is old enough again by its key, and removes
those that are read or acknowledged, one write for each. Whether a message goes is decided by its own state; what the
mailbox shows is decided by threads. -/

namespace AtmCore

open Rows Fallible List

structure ClearQuery where
  /-- A duration in nanoseconds. -/
  olderThan : Option Nat
  idleOnly : Bool
  dryRun : Bool

structure RemovedByClass where
  acknowledged : Nat
  read : Nat
  deriving DecidableEq

structure ClearOutcome where
  team : TeamName
  agent : AgentName
  removedTotal : Nat
  remainingTotal : Nat
  removedByClass : RemovedByClass
  deriving DecidableEq

structure RemovableMessage where
  messageKey : MessageKey
  envelope : MessageEnvelope
  «class» : MessageClass

/-- `TimeDelta::MAX`, in nanoseconds. -/
def maxTimeDelta : Nat := (2 ^ 63 - 1) * 1000000

def cutoffTimestamp (now : IsoTimestamp) : Option Nat → Outcome (Option IsoTimestamp)
  | none => .ok none
  | some duration =>
    if maxTimeDelta < duration then
      Outcome.fail (.validation
        "invalid duration filter: Source duration value is out of range for the target type")
    else .ok (some ⟨now.nanos - duration⟩)

/-- A message that is too new to go. -/
def afterCutoff (cutoff : Option IsoTimestamp) (messageAt : IsoTimestamp) : Bool :=
  cutoff.any (fun cutoff => decide (cutoff.nanos < messageAt.nanos))

section Clear

/- `serde_json::from_str`. -/
variable (fromStr : String → Option Value)

def isIdleNotification (message : MessageEnvelope) : Bool :=
  (fromStr message.text).any (fun value => decide ((value.get "type").bind Value.asStr = some "idle_notification"))

def sqliteRemovableMessages (mailbox : MailboxScope) (cutoff : Option IsoTimestamp) (idleOnly : Bool) (db : Db) :
    List Message → Outcome (List RemovableMessage)
  | [] => .ok []
  | row :: rows =>
    if afterCutoff cutoff row.envelope.timestamp then sqliteRemovableMessages mailbox cutoff idleOnly db rows
    else
      match loadMessageRecord mailbox row.messageKey db with
      | none => Outcome.fail (.validation
          s!"sqlite mailbox metadata row {row.messageKey.val} could not be reloaded for clear")
      | some record =>
        let «class» := classifyMessage record.envelope
        if «class» ≠ .read ∧ «class» ≠ .acknowledged then sqliteRemovableMessages mailbox cutoff idleOnly db rows
        else if idleOnly && !isIdleNotification fromStr record.envelope then
          sqliteRemovableMessages mailbox cutoff idleOnly db rows
        else do
          let removable ← sqliteRemovableMessages mailbox cutoff idleOnly db rows
          return ⟨row.messageKey, record.envelope, «class»⟩ :: removable

/-- `persist_deleted_messages`: each deletion is a write of its own, and the first that fails is the last. -/
def persistDeletedMessages (origin : MessageWriteOrigin) : List RemovableMessage → Db → Outcome Unit × Db
  | [], db => (.ok (), db)
  | removable :: rest, db =>
    match executeDeleteMessage removable.messageKey origin db with
    | .error fault => (.error fault, db)
    | .ok db => persistDeletedMessages origin rest db

def countRemoved (counts : RemovedByClass) : MessageClass → RemovedByClass
  | .acknowledged => { counts with acknowledged := counts.acknowledged + 1 }
  | .read => { counts with read := counts.read + 1 }
  | .unread | .pendingAck => counts

/-- `load_clear_runtime_context`: the listed messages, and those of them that can go. -/
def loadClearRuntimeContext (now : IsoTimestamp) (mailbox : MailboxScope) (query : ClearQuery) (db : Db) :
    Outcome (List Message × List RemovableMessage) := do
  let cutoff ← cutoffTimestamp now query.olderThan
  let metadataRows := listMessages now ⟨mailbox, none, none, none⟩ db
  let removable ← sqliteRemovableMessages fromStr mailbox cutoff query.idleOnly db metadataRows
  return (metadataRows, removable)

def clearOutcome (mailbox : MailboxScope) (metadataRows : List Message) (removable : List RemovableMessage) :
    ClearOutcome where
  team := mailbox.team
  agent := mailbox.agent
  removedTotal := removable.length
  remainingTotal := metadataRows.length - removable.length
  removedByClass := (removable.map RemovableMessage.«class»).foldl countRemoved ⟨0, 0⟩

def clearMail (now : IsoTimestamp) (mailbox : MailboxScope) (query : ClearQuery)
    (origin : MessageWriteOrigin) (db : Db) : Outcome ClearOutcome × Db :=
  match loadClearRuntimeContext fromStr now mailbox query db with
  | .error fault => (.error fault, db)
  | .ok (metadataRows, removable) =>
    if query.dryRun then (.ok (clearOutcome mailbox metadataRows removable), db)
    else
      match persistDeletedMessages origin removable db with
      | (.error fault, db) => (.error fault, db)
      | (.ok (), db) => (.ok (clearOutcome mailbox metadataRows removable), db)

/-- The messages that a clear removes, by their own state. -/
def clears (cutoff : Option IsoTimestamp) (idleOnly : Bool) (message : MessageEnvelope) : Bool :=
  !afterCutoff cutoff message.timestamp &&
    (decide (classifyMessage message = .read) || decide (classifyMessage message = .acknowledged)) &&
    (!idleOnly || isIdleNotification fromStr message)

end Clear

variable {row : MailRow} {keys : List MessageKey} {removable : List RemovableMessage} {fault : Fault}

section Specs

variable {fromStr : String → Option Value} {mailbox : MailboxScope} {cutoff : Option IsoTimestamp} {idleOnly : Bool}
  {db : Db} {origin : MessageWriteOrigin}

/-- A message of the mailbox that is found by its key alone is the message that was listed. -/
theorem loadMessageRecord_eq {record : Message} (hrow : row ∈ db.mailMessages.rows)
    (hwith : row.within mailbox = true) (h : loadMessageRecord mailbox row.messageKey db = some record) :
    record = db.messageOf row := by
  rw [loadMessageRecord, Option.filter_eq_some_iff, loadMessage, Option.map_eq_some_iff] at h
  obtain ⟨⟨first, hfirst, rfl⟩, hbox⟩ := h
  rw [Bool.and_eq_true, decide_eq_true_iff, decide_eq_true_iff] at hbox
  obtain ⟨hteam, hag⟩ := MailRow.within_eq_true.mp hwith
  have hkey : first.key = row.key := by
    rw [MailRow.key, MailRow.key, Prod.mk.injEq, Prod.mk.injEq]
    exact ⟨hbox.1.trans hteam.symm, hbox.2.trans hag.symm, by simpa using find?_some hfirst⟩
  rw [db.mailMessages.eq_of_key_eq (mem_of_find?_eq_some hfirst) hrow hkey]

/-- One message of the list, which goes by its own state. -/
theorem sqliteRemovableMessages_cons {message : Message} {rows : List Message}
    (hload : loadMessageRecord mailbox message.messageKey db = some message) :
    sqliteRemovableMessages fromStr mailbox cutoff idleOnly db (message :: rows) =
      if clears fromStr cutoff idleOnly message.envelope then do
        let removable ← sqliteRemovableMessages fromStr mailbox cutoff idleOnly db rows
        return ⟨message.messageKey, message.envelope, classifyMessage message.envelope⟩ :: removable
      else sqliteRemovableMessages fromStr mailbox cutoff idleOnly db rows := by
  rw [sqliteRemovableMessages, hload, clears]
  dsimp only
  cases afterCutoff cutoff message.envelope.timestamp with
  | true => rfl
  | false =>
    cases idleOnly with
    | false => cases classifyMessage message.envelope <;> simp
    | true =>
      cases isIdleNotification fromStr message.envelope <;> cases classifyMessage message.envelope <;> simp

theorem sqliteRemovableMessages_eq_ok {rows : List MailRow} (hrows : RowsOf mailbox rows db)
    (h : sqliteRemovableMessages fromStr mailbox cutoff idleOnly db (rows.map db.messageOf) = .ok removable) :
    removable.map RemovableMessage.messageKey =
      (rows.filter (fun row => clears fromStr cutoff idleOnly (db.messageOf row).envelope)).map MailRow.messageKey := by
  induction rows generalizing removable with
  | nil =>
    cases h
    rfl
  | cons row rows ih =>
    obtain ⟨hrow, hwith⟩ := hrows row mem_cons_self
    have hrest := fun other hother => hrows other (mem_cons_of_mem row hother)
    rw [map_cons] at h
    cases hload : loadMessageRecord mailbox (db.messageOf row).messageKey db with
    | some record =>
      rw [loadMessageRecord_eq hrow hwith hload] at hload
      rw [sqliteRemovableMessages_cons hload] at h
      by_cases hclears : clears fromStr cutoff idleOnly (db.messageOf row).envelope = true
      · rw [if_pos hclears] at h
        obtain ⟨rest, hremovable, heq⟩ := bind_eq_ok.mp h
        cases heq
        rw [filter_cons, if_pos hclears, map_cons, map_cons, ih hrest hremovable]
        rfl
      · rw [if_neg hclears] at h
        rw [filter_cons, if_neg hclears, ih hrest h]
    | none =>
      -- a message that is too new is not loaded
      rw [sqliteRemovableMessages, hload] at h
      by_cases hafter : afterCutoff cutoff (db.messageOf row).envelope.timestamp = true
      · rw [if_pos hafter] at h
        have hclears : clears fromStr cutoff idleOnly (db.messageOf row).envelope = false := by
          rw [clears, hafter]
          rfl
        rw [filter_cons, hclears, if_neg Bool.false_ne_true, ih hrest h]
      · rw [if_neg hafter] at h
        cases h

/-- The database without some message keys. -/
def Db.without (keys : List MessageKey) (db : Db) : Db := keys.foldl (fun db key => db.deleted key) db

theorem filter_keys {ρ : Type} (key : ρ → MessageKey) {first : MessageKey} {rows : List ρ} :
    (rows.filter (fun row => decide (key row ≠ first))).filter (fun row => decide (key row ∉ keys)) =
      rows.filter (fun row => decide (key row ∉ first :: keys)) := by
  rw [List.filter_filter]
  refine filter_congr (fun row _ => ?_)
  rw [Bool.eq_iff_iff, Bool.and_eq_true, decide_eq_true_iff, decide_eq_true_iff, decide_eq_true_iff, mem_cons, not_or,
    and_comm]

theorem Db.without_mailMessages (db : Db) :
    (db.without keys).mailMessages.rows = db.mailMessages.rows.filter (fun row => decide (row.messageKey ∉ keys)) := by
  induction keys generalizing db with
  | nil => simp [Db.without]
  | cons key keys ih => exact (ih (db.deleted key)).trans (filter_keys MailRow.messageKey)

theorem Db.without_messageStates (db : Db) :
    (db.without keys).messageStates.rows = db.messageStates.rows.filter
      (fun row => decide (row.messageKey ∉ keys)) := by
  induction keys generalizing db with
  | nil => simp [Db.without]
  | cons key keys ih => exact (ih (db.deleted key)).trans (filter_keys MessageStateRow.messageKey)

theorem Db.without_stateOf (h : row.messageKey ∉ keys) : (db.without keys).stateOf row = db.stateOf row := by
  have hstates : (db.without keys).messageStates =
      db.messageStates.filterRows (fun row => decide (row.messageKey ∉ keys)) := by
    ext1
    exact Db.without_messageStates db
  rw [Db.stateOf, Db.stateOf, hstates]
  refine Table.find?_filterRows_of_key _ (fun state hstate => ?_)
  rw [MessageStateRow.key, MailRow.key, Prod.mk.injEq, Prod.mk.injEq] at hstate
  rw [decide_eq_true_iff, hstate.2.2]
  exact h

theorem Db.without_messageOf (h : row.messageKey ∉ keys) : (db.without keys).messageOf row = db.messageOf row := by
  rw [Db.messageOf, Db.messageOf, Db.without_stateOf h]

theorem mem_liveRows_without {now : IsoTimestamp} :
    row ∈ liveRows now mailbox (db.without keys) ↔ row ∈ liveRows now mailbox db ∧ row.messageKey ∉ keys := by
  rw [mem_liveRows, mem_liveRows, Db.without_mailMessages, mem_filter, decide_eq_true_iff]
  constructor
  · rintro ⟨⟨⟨hrow, hstays⟩, hwith⟩, hlive⟩
    rw [Db.without_stateOf hstays] at hlive
    exact ⟨⟨⟨hrow, hwith⟩, hlive⟩, hstays⟩
  · rintro ⟨⟨⟨hrow, hwith⟩, hlive⟩, hstays⟩
    rw [Db.without_stateOf hstays]
    exact ⟨⟨⟨hrow, hstays⟩, hwith⟩, hlive⟩

theorem persistDeletedMessages_of_fence (h : validateCronGenerationFence origin db.cronSchedules = .ok ()) :
    persistDeletedMessages origin removable db = (.ok (), db.without (removable.map RemovableMessage.messageKey)) := by
  induction removable generalizing db with
  | nil => rfl
  | cons removable rest ih =>
    rw [persistDeletedMessages, executeDeleteMessage, h, bind_ok]
    exact ih h

theorem persistDeletedMessages_of_refused {first : RemovableMessage} {rest : List RemovableMessage}
    (h : validateCronGenerationFence origin db.cronSchedules = .error fault) :
    persistDeletedMessages origin (first :: rest) db = (.error fault, db) := by
  rw [persistDeletedMessages, executeDeleteMessage, h, bind_error]

variable {now : IsoTimestamp} {query : ClearQuery}

theorem clearMail_of_error (h : (clearMail fromStr now mailbox query origin db).1 = .error fault) :
    (clearMail fromStr now mailbox query origin db).2 = db := by
  rw [clearMail] at h ⊢
  cases hload : loadClearRuntimeContext fromStr now mailbox query db with
  | error fault => rfl
  | ok loaded =>
    obtain ⟨metadataRows, removable⟩ := loaded
    rw [hload] at h
    dsimp only at h ⊢
    by_cases hdry : query.dryRun = true
    · rw [if_pos hdry]
    · rw [if_neg hdry] at h ⊢
      cases hfence : validateCronGenerationFence origin db.cronSchedules with
      | ok _ =>
        rw [persistDeletedMessages_of_fence hfence] at h
        cases h
      | error refusal =>
        cases removable with
        | nil => rfl
        | cons first rest => rw [persistDeletedMessages_of_refused hfence]

theorem clearMail_eq_ok {outcome : ClearOutcome} (h : (clearMail fromStr now mailbox query origin db).1 = .ok outcome) :
    ∃ metadataRows removable, loadClearRuntimeContext fromStr now mailbox query db = .ok (metadataRows, removable) ∧
      outcome = clearOutcome mailbox metadataRows removable ∧ (clearMail fromStr now mailbox query origin db).2 =
        if query.dryRun then db else db.without (removable.map RemovableMessage.messageKey) := by
  rw [clearMail] at h ⊢
  cases hload : loadClearRuntimeContext fromStr now mailbox query db with
  | error fault =>
    rw [hload] at h
    cases h
  | ok loaded =>
    obtain ⟨metadataRows, removable⟩ := loaded
    rw [hload] at h
    dsimp only at h ⊢
    by_cases hdry : query.dryRun = true
    · rw [if_pos hdry] at h ⊢
      exact ⟨metadataRows, removable, rfl, (Except.ok.inj h).symm, (if_pos hdry).symm⟩
    · rw [if_neg hdry] at h ⊢
      refine ⟨metadataRows, removable, rfl, ?_⟩
      rw [if_neg hdry]
      cases hfence : validateCronGenerationFence origin db.cronSchedules with
      | ok _ =>
        rw [persistDeletedMessages_of_fence hfence] at h ⊢
        exact ⟨(Except.ok.inj h).symm, rfl⟩
      | error refusal =>
        cases removable with
        | nil => exact ⟨(Except.ok.inj h).symm, rfl⟩
        | cons first rest =>
          rw [persistDeletedMessages_of_refused hfence] at h
          cases h

end Specs

end AtmCore
