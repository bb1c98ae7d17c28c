import AtmCore.CronOutbox

/-! The pending nudges of a member. A message that waits for a deferred nudge has the instant it is due in its state
row, with the number of nudges that failed. A claim moves the instant one reminder interval on, which is its lease;
whoever holds the claim then requeues, releases or completes it, and names the failures it has seen. -/

namespace AtmCore

open Rows Table

def maxNudgeAttempts : Nat := 5

structure NudgeClaim where
  msg : AtmMessageId
  attempt : Nat
  deriving DecidableEq

/-- The due time one reminder interval on. -/
def nextReminderDue (now : IsoTimestamp) : IsoTimestamp := now.addMillis taskReminderIntervalMs

/-- `as_atm_message_id`, with or without the text in front that marks a key of a message id. -/
def MessageKey.asAtmMessageId (codec : CronCodec) (key : MessageKey) : Except AtmError AtmMessageId :=
  let text := key.val.toList
  let raw := if "atm:".toList.isPrefixOf text then text.drop 4 else text
  match codec.parseMessageId (String.ofList raw) with
  | .ok id => .ok id
  | .error error => .error (.validation s!"message key parse failed: {error}")

@[simp] theorem MessageKey.asAtmMessageId_fromAtmMessageId {codec : CronCodec} {id : AtmMessageId} :
    (MessageKey.fromAtmMessageId id).asAtmMessageId codec = .ok id := by
  have htext : (MessageKey.fromAtmMessageId id).val.toList = "atm:".toList ++ id.toText.toList := by
    rw [MessageKey.fromAtmMessageId, String.toList_append]
  have hprefix : "atm:".toList.isPrefixOf ("atm:".toList ++ id.toText.toList) = true :=
    List.isPrefixOf_iff_prefix.mpr (List.prefix_append _ _)
  have hdrop : ("atm:".toList ++ id.toText.toList).drop 4 = id.toText.toList := rfl
  simp only [MessageKey.asAtmMessageId, htext, hprefix, if_true, hdrop, String.ofList_toList,
    codec.parseMessageId_toText]

def MemberKey.mailKey (member : MemberKey) (msg : AtmMessageId) : MailKey :=
  (member.team, member.agent, .fromAtmMessageId msg)

/-- `OPEN_ITEM_SQL`: a message is open while it is unread, or while an acknowledgement is owed. -/
def MessageStateRow.isOpen (row : MessageStateRow) : Bool :=
  (!row.read || (row.pendingAckAt.isSome && row.acknowledgedAt.isNone)) && row.deletedAt.isNone

/-- `UPDATE mail_message_states SET nudge_pending_at = ?, nudge_attempts = ?, updated_at = ? WHERE team = ? AND
agent = ? AND message_key = ? AND …`, the form of all statements of the store. -/
structure NudgeUpdate where
  key : MailKey
  matching : MessageStateRow → Bool
  due : Option IsoTimestamp
  attempts : MessageStateRow → Nat
  updatedAt : IsoTimestamp

namespace NudgeUpdate

def set (update : NudgeUpdate) (row : MessageStateRow) : MessageStateRow :=
  { row with
    nudgePendingAt := update.due
    nudgeAttempts := update.attempts row
    updatedAt := update.updatedAt }

def onRow (update : NudgeUpdate) (row : MessageStateRow) : MessageStateRow :=
  if row.key = update.key ∧ update.matching row = true then update.set row else row

theorem onRow_key (update : NudgeUpdate) (row : MessageStateRow) : (update.onRow row).key = row.key := by
  rw [onRow]
  split <;> rfl

def apply (update : NudgeUpdate) (db : Db) : Db :=
  { db with messageStates := db.messageStates.mapRows update.onRow update.onRow_key }

/-- The statement changed one row. -/
def changes (update : NudgeUpdate) (db : Db) : Bool := (db.messageStates.find? update.key).any update.matching

theorem find?_apply (update : NudgeUpdate) (db : Db) (key : MailKey) :
    (update.apply db).messageStates.find? key = (db.messageStates.find? key).map update.onRow :=
  find?_mapRows db.messageStates update.onRow update.onRow_key key

theorem apply_of_unchanged {update : NudgeUpdate} {db : Db} (h : update.changes db = false) : update.apply db = db := by
  have hrows : ∀ row ∈ db.messageStates.rows, update.onRow row = row := by
    intro row hrow
    refine if_neg ?_
    rintro ⟨hkey, hmatch⟩
    rw [changes, ← hkey, find?_key hrow] at h
    exact absurd hmatch (Bool.eq_false_iff.mp h)
  rw [apply, mapRows_of_forall_eq _ _ hrows]

end NudgeUpdate

section Statements

variable (member : MemberKey)

def markPending (msg : AtmMessageId) (instant : IsoTimestamp) : NudgeUpdate where
  key := member.mailKey msg
  matching row := !row.read && row.deletedAt.isNone
  due := some instant
  attempts _ := 0
  updatedAt := instant

/-- The row of a claim: marked, with the failures that the claim has seen, and open. -/
def NudgeClaim.holds (claim : NudgeClaim) (row : MessageStateRow) : Bool :=
  row.nudgePendingAt.isSome && decide (row.nudgeAttempts = claim.attempt) && row.isOpen

def requeuePending (claim : NudgeClaim) (now : IsoTimestamp) : NudgeUpdate where
  key := member.mailKey claim.msg
  matching := claim.holds
  due := some (if maxNudgeAttempts ≤ claim.attempt + 1 then nextReminderDue now else now)
  attempts _ := if maxNudgeAttempts ≤ claim.attempt + 1 then 0 else claim.attempt + 1
  updatedAt := now

def releasePending (claim : NudgeClaim) (now : IsoTimestamp) : NudgeUpdate where
  key := member.mailKey claim.msg
  matching := claim.holds
  due := some now
  attempts row := row.nudgeAttempts
  updatedAt := now

/-- Unlike the others, this asks neither for a marker nor for the failures of a claim. -/
def rearmPendingAfterHandoff (msg : AtmMessageId) (nextDue now : IsoTimestamp) : NudgeUpdate where
  key := member.mailKey msg
  matching := MessageStateRow.isOpen
  due := some nextDue
  attempts row := row.nudgeAttempts
  updatedAt := now

def completePendingBeforeTerminalHandoff (claim : NudgeClaim) (now : IsoTimestamp) : NudgeUpdate where
  key := member.mailKey claim.msg
  matching := claim.holds
  due := none
  attempts row := row.nudgeAttempts
  updatedAt := now

def restorePendingAfterFailedTerminalHandoff (claim : NudgeClaim) (now : IsoTimestamp) : NudgeUpdate where
  key := member.mailKey claim.msg
  matching row := row.nudgePendingAt.isNone && decide (row.nudgeAttempts = claim.attempt) && row.isOpen
  due := some now
  attempts row := row.nudgeAttempts
  updatedAt := now

/-- `nudge_pending_at IS NOT NULL AND nudge_pending_at <= now`. -/
def MessageStateRow.dueBy (row : MessageStateRow) (now : IsoTimestamp) : Bool :=
  row.nudgePendingAt.any (fun due => decide (due.nanos ≤ now.nanos))

def MessageStateRow.isOf (row : MessageStateRow) : Bool :=
  decide (row.team = member.team) && decide (row.agent = member.agent)

/-- `ORDER BY message_key ASC`. -/
def keyAscending (left right : MessageStateRow) : Bool := decide (left.messageKey.val ≤ right.messageKey.val)

def nextPending (now : IsoTimestamp) (db : Db) : Option MessageStateRow :=
  ((db.messageStates.rows.filter (fun row => row.isOf member && row.dueBy now && row.isOpen &&
    decide (row.nudgeAttempts < maxNudgeAttempts))).mergeSort keyAscending).head?

def leasePending (row : MessageStateRow) (now : IsoTimestamp) : NudgeUpdate where
  key := row.key
  matching _ := true
  due := some (nextReminderDue now)
  attempts row := row.nudgeAttempts
  updatedAt := now

/-- A key that is not one of a message id fails the transaction, and the row stays as it was. -/
def claimNextPending (codec : CronCodec) (now : IsoTimestamp) (db : Db) : Except AtmError (Option NudgeClaim × Db) :=
  match nextPending member now db with
  | none => .ok (none, db)
  | some row => do
    let msg ← row.messageKey.asAtmMessageId codec
    return (some ⟨msg, row.nudgeAttempts⟩, (leasePending row now).apply db)

end Statements

end AtmCore
