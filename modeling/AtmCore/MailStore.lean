import AtmCore.Database
import AtmCore.Fallible

/-! Storing messages: the canonical insertion, the lookup of a retained message and the acknowledgement
source. An insertion of a key that is present does nothing to `mail_messages`, whatever its payload, and
a fresh one is refused when its message id or its parent is taken in the mailbox. Either way the state
row of the key is written from the request. -/

namespace AtmCore

open Rows Fallible Table

def maxEnvelopeJsonBytes : Nat := 1048576

/-- `PlainTemplateClassification`: the searchable metadata of an ordinary message. -/
structure Classification where
  category : Option String
  contentFormat : Option String
  tags : List String

def optionalString (extra : List (String × Value)) (key : String) : Except AtmError (Option String) :=
  match Value.lookup extra key with
  | none | some .null => .ok none
  | some (.string value) => .ok (some value)
  | some _ =>
    .error (.mailboxWrite s!"message classification metadata '{key}' must be a string or null")

def tagsMalformed : AtmError :=
  .mailboxWrite "message classification metadata 'tags' must be an array of strings"

def classificationTags (extra : List (String × Value)) : Except AtmError (List String) :=
  match Value.lookup extra "tags" with
  | none => .ok []
  | some (.array values) =>
    values.mapM (fun value => match value.asStr with
      | some tag => .ok tag
      | none => .error tagsMalformed)
  | some _ => .error tagsMalformed

def messageClassification (extra : List (String × Value)) : Except AtmError Classification := do
  let tags ← classificationTags extra
  let category ← optionalString extra "category"
  let contentFormat ← optionalString extra "content_format"
  return { category := category, contentFormat := contentFormat, tags := tags }

def validateMessageRecord (world : World) (record : Message) : Except AtmError Unit :=
  if maxEnvelopeJsonBytes < world.envelopeJsonLen (StorageEnvelope.new record.envelope) then
    .error (.validation
      s!"mail-store envelope JSON exceeded the writer lane limit of {maxEnvelopeJsonBytes} bytes")
  else if !("atm:".toList.isPrefixOf record.messageKey.val.toList) &&
      !("ext:".toList.isPrefixOf record.messageKey.val.toList) then
    .error (.validation
      ("mail-store message_key must start with `atm:` or `ext:`; got `" ++ record.messageKey.val ++ "`"))
  else .ok ()

/-- `prepare_message_insert_values`: the row an admission would insert. -/
def prepareMessageRow (world : World) (record : Message) (recordedAt : IsoTimestamp) :
    Except AtmError MailRow := do
  validateMessageRecord world record
  let classification ← messageClassification record.envelope.extra
  return {
    team := record.team
    agent := record.agent
    messageKey := record.messageKey
    envelopeJson := StorageEnvelope.new record.envelope
    fromAgent := record.envelope.from
    sourceChatId := record.envelope.sourceChatId
    destinationChatId := record.envelope.destinationChatId
    messageText := some record.envelope.text
    category := classification.category
    contentFormat := classification.contentFormat
    tags := classification.tags
    summary := record.envelope.summary
    messageAt := record.envelope.timestamp
    messageId := record.envelope.messageId
    parentMessageId := record.envelope.parentMessageId
    threadMode := record.envelope.threadMode
    recordedAt := recordedAt
    templateSha := none
    vars := none
    workflow := none }

/-- Two rows of one mailbox that share a column that is set. -/
def MailRow.sharesIn (column : MailRow → Option AtmMessageId) (row other : MailRow) : Bool :=
  decide (other.team = row.team) && decide (other.agent = row.agent) && (column row).isSome &&
    decide (column other = column row)

/-- The unique indexes of `mail_messages` beside its primary key. -/
def mailConflict (mail : Table MailRow.key) (row : MailRow) : Option Constraint :=
  if mail.rows.any (row.sharesIn MailRow.messageId) then some .mailMessageId
  else if mail.rows.any (row.sharesIn MailRow.parentMessageId) then some .mailSingleSuccessor
  else none

def messageInvariantViolated (violated : Constraint) : AtmError :=
  (AtmError.validation
    "mail-store message violates a durable message-id or successor uniqueness invariant").withCause
    (.constraint violated)

/-- `INSERT INTO mail_messages … ON CONFLICT(team, agent, message_key) DO NOTHING`: the conflict target
is tested before the other unique indexes. -/
def insertMessageRow (mail : Table MailRow.key) (row : MailRow) :
    Except AtmError (Option (Table MailRow.key)) :=
  match mail.insertNew row with
  | none => .ok none
  | some inserted =>
    match mailConflict mail row with
    | some violated => .error (messageInvariantViolated violated)
    | none => .ok (some inserted)

/-- `sync_inserted_message_projection`. -/
def searchDocumentOf (row : MailRow) : SearchDocument where
  team := row.team
  agent := row.agent
  messageKey := row.messageKey
  messageId := row.messageId
  messageAt := row.messageAt
  bodyText := row.messageText.getD ""
  summary := row.summary.getD ""
  tags := " ".intercalate row.tags
  varValues := (row.vars.map (fun vars => flattenJsonText (.object vars))).getD ""
  fromAgent := row.fromAgent

def syncMessageProjection (documents : Table SearchDocument.key) (row : MailRow) :
    Table SearchDocument.key :=
  let document := searchDocumentOf row
  documents.upsert document
    (fun stored => { document with team := stored.team, agent := stored.agent, messageKey := stored.messageKey })
    (fun _ => rfl)

def settled (read : Bool) (pendingAckAt acknowledgedAt : Option IsoTimestamp) : Bool :=
  read && !(pendingAckAt.isSome && acknowledgedAt.isNone)

def Message.newState (record : Message) (updatedAt : IsoTimestamp) : MessageStateRow where
  team := record.team
  agent := record.agent
  messageKey := record.messageKey
  read := record.envelope.read
  pendingAckAt := record.envelope.pendingAckAt
  acknowledgedAt := record.envelope.acknowledgedAt
  expiresAt := record.envelope.expiresAt
  deletedAt := none
  updatedAt := updatedAt
  nudgePendingAt := none
  nudgeAttempts := 0

/-- `ON CONFLICT … DO UPDATE SET …`. -/
def Message.restate (record : Message) (updatedAt : IsoTimestamp) (stored : MessageStateRow) :
    MessageStateRow :=
  { stored with
    read := record.envelope.read
    pendingAckAt := record.envelope.pendingAckAt
    acknowledgedAt := record.envelope.acknowledgedAt
    expiresAt := record.envelope.expiresAt
    deletedAt := none
    updatedAt := updatedAt
    nudgePendingAt :=
      if settled record.envelope.read record.envelope.pendingAckAt record.envelope.acknowledgedAt then none
      else stored.nudgePendingAt }

def upsertMessageState (states : Table MessageStateRow.key) (record : Message) (updatedAt : IsoTimestamp) :
    Table MessageStateRow.key :=
  states.upsert (record.newState updatedAt) (record.restate updatedAt) (fun _ => rfl)

theorem find?_upsertMessageState {states : Table MessageStateRow.key} {record : Message}
    {updatedAt : IsoTimestamp} {key : MailKey} : (upsertMessageState states record updatedAt).find? key =
      if record.mailKey = key then
        some ((states.find? key).elim (record.newState updatedAt) (record.restate updatedAt))
      else states.find? key :=
  find?_upsert states _ _

/-- Stores a message, and says whether its key was new. -/
def insertMessageCanonical (world : World) (record : Message) (recordedAt : IsoTimestamp) (db : Db) :
    Outcome (Bool × Db) := do
  let row ← Outcome.lift (prepareMessageRow world record recordedAt)
  match ← Outcome.lift (insertMessageRow db.mailMessages row) with
  | none =>
    return (false, { db with messageStates := upsertMessageState db.messageStates record recordedAt })
  | some mail =>
    return (true, { db with
      mailMessages := mail
      searchDocuments := syncMessageProjection db.searchDocuments row
      messageStates := upsertMessageState db.messageStates record recordedAt })

/-- The envelope of a stored message under the columns of its state row. -/
def withState (envelope : MessageEnvelope) (read : Bool)
    (pendingAckAt acknowledgedAt expiresAt : Option IsoTimestamp) : MessageEnvelope :=
  { envelope with
    read := read
    pendingAckAt := pendingAckAt
    acknowledgedAt := acknowledgedAt
    expiresAt := expiresAt }

/-- The retained message of a key. The state row is joined from the left: without one the message is
unread and owes nothing. -/
def loadExistingMessage (requested : Message) (db : Db) : Outcome Message :=
  match db.mailMessages.find? requested.mailKey with
  | none =>
    Outcome.fail (.daemonUnavailable
      "sqlite writer reported an existing message key but the retained record could not be loaded")
  | some row =>
    let envelope := row.envelopeJson.decode
    .ok {
      team := requested.team
      agent := requested.agent
      messageKey := requested.messageKey
      envelope := match db.messageStates.find? requested.mailKey with
        | none => withState envelope false none none none
        | some state =>
          withState envelope state.read state.pendingAckAt state.acknowledgedAt state.expiresAt }

def markSourceAcknowledged (source : Message) (now : IsoTimestamp) : Message :=
  { source with envelope := { source.envelope with
    read := true
    pendingAckAt := none
    acknowledgedAt := some now } }

/-- `UPDATE mail_messages SET envelope_json=? WHERE team=? AND agent=? AND message_key=?`, with the task
link of the message removed. -/
def dropTaskLinkFromMail (record : Message) (db : Db) : Db :=
  let envelope := { record.envelope with
    taskId := none
    taskOp := none
    taskComplete := none
    placement := none }
  { db with
    mailMessages := db.mailMessages.mapRows
      (fun row =>
        if row.key = record.mailKey then { row with envelopeJson := StorageEnvelope.new envelope }
        else row)
      (fun row => by split <;> rfl) }

variable {world : World} {record : Message} {recordedAt : IsoTimestamp} {row : MailRow} {db : Db}

theorem prepareMessageRow_eq_ok (h : prepareMessageRow world record recordedAt = .ok row) :
    validateMessageRecord world record = .ok () ∧
    ∃ classification, messageClassification record.envelope.extra = .ok classification ∧ row = {
      team := record.team
      agent := record.agent
      messageKey := record.messageKey
      envelopeJson := StorageEnvelope.new record.envelope
      fromAgent := record.envelope.from
      sourceChatId := record.envelope.sourceChatId
      destinationChatId := record.envelope.destinationChatId
      messageText := some record.envelope.text
      category := classification.category
      contentFormat := classification.contentFormat
      tags := classification.tags
      summary := record.envelope.summary
      messageAt := record.envelope.timestamp
      messageId := record.envelope.messageId
      parentMessageId := record.envelope.parentMessageId
      threadMode := record.envelope.threadMode
      recordedAt := recordedAt
      templateSha := none
      vars := none
      workflow := none } := by
  rw [prepareMessageRow] at h
  obtain ⟨⟨⟩, hval, h⟩ := bind_eq_ok.mp h
  obtain ⟨classification, hclass, h⟩ := bind_eq_ok.mp h
  exact ⟨hval, classification, hclass, (Except.ok.inj h).symm⟩

theorem prepareMessageRow_key (h : prepareMessageRow world record recordedAt = .ok row) :
    row.key = record.mailKey := by
  obtain ⟨-, classification, -, rfl⟩ := prepareMessageRow_eq_ok h
  rfl

/-- A key that is present is not inserted again, whatever the message says. -/
theorem insertMessageCanonical_of_present {stored : MailRow}
    (hst : db.mailMessages.find? record.mailKey = some stored) : insertMessageCanonical world record recordedAt db =
      (Outcome.lift (prepareMessageRow world record recordedAt)).bind (fun _ =>
        .ok (false, { db with
          messageStates := upsertMessageState db.messageStates record recordedAt })) := by
  unfold insertMessageCanonical
  cases hrow : prepareMessageRow world record recordedAt with
  | error error => rfl
  | ok row =>
    have hpresent : db.mailMessages.insertNew row = none := by
      rw [insertNew_eq_none_iff, prepareMessageRow_key hrow]
      exact ⟨stored, hst⟩
    have href : insertMessageRow db.mailMessages row = .ok none := by
      rw [insertMessageRow, hpresent]
    simp only [Outcome.lift, Fallible.bind_ok, href]
    rfl

theorem insertMessageRow_eq_some {mail inserted : Table MailRow.key}
    (h : insertMessageRow mail row = .ok (some inserted)) :
    mail.find? row.key = none ∧ mailConflict mail row = none ∧ inserted.rows = mail.rows ++ [row] := by
  unfold insertMessageRow at h
  cases hnew : mail.insertNew row with
  | none =>
    rw [hnew] at h
    cases h
  | some table =>
    rw [hnew] at h
    dsimp only at h
    split at h
    · cases h
    · next hconf =>
      obtain rfl := Option.some.inj (Except.ok.inj h)
      obtain ⟨hfr, hrows⟩ := (insertNew_eq_some_iff mail table).mp hnew
      exact ⟨hfr, hconf, hrows⟩

theorem insertMessageRow_eq_none {mail : Table MailRow.key} (h : insertMessageRow mail row = .ok none) :
    ∃ stored, mail.find? row.key = some stored := by
  unfold insertMessageRow at h
  cases hnew : mail.insertNew row with
  | none => exact (insertNew_eq_none_iff mail).mp hnew
  | some table =>
    rw [hnew] at h
    dsimp only at h
    split at h <;> cases h

theorem lift_eq_ok {α : Type} {x : Except AtmError α} {a : α} (h : Outcome.lift x = .ok a) : x = .ok a := by
  cases x <;> cases h
  rfl

/-- A message of a new key: its row is appended, and its state written from it. -/
theorem insertMessageCanonical_eq_true {db' : Db}
    (h : insertMessageCanonical world record recordedAt db = .ok (true, db')) :
    ∃ row mail, prepareMessageRow world record recordedAt = .ok row ∧
      db.mailMessages.find? record.mailKey = none ∧ mailConflict db.mailMessages row = none ∧
      mail.rows = db.mailMessages.rows ++ [row] ∧ db' = { db with
        mailMessages := mail
        searchDocuments := syncMessageProjection db.searchDocuments row
        messageStates := upsertMessageState db.messageStates record recordedAt } := by
  obtain ⟨row, hrow, h⟩ := bind_eq_ok.mp h
  obtain ⟨mail, hins, h⟩ := bind_eq_ok.mp h
  cases mail with
  | none => cases h
  | some mail =>
    obtain ⟨hfr, hconf, hrows⟩ := insertMessageRow_eq_some (lift_eq_ok hins)
    rw [prepareMessageRow_key (lift_eq_ok hrow)] at hfr
    exact ⟨row, mail, lift_eq_ok hrow, hfr, hconf, hrows, (Prod.mk.inj (Except.ok.inj h)).2.symm⟩

/-- A message of a key that is stored: only the state is written. -/
theorem insertMessageCanonical_eq_false {db' : Db}
    (h : insertMessageCanonical world record recordedAt db = .ok (false, db')) :
    (∃ stored, db.mailMessages.find? record.mailKey = some stored) ∧
      db' = { db with messageStates := upsertMessageState db.messageStates record recordedAt } := by
  obtain ⟨row, hrow, h⟩ := bind_eq_ok.mp h
  obtain ⟨mail, hins, h⟩ := bind_eq_ok.mp h
  cases mail with
  | none =>
    have hst := insertMessageRow_eq_none (lift_eq_ok hins)
    rw [prepareMessageRow_key (lift_eq_ok hrow)] at hst
    exact ⟨hst, (Prod.mk.inj (Except.ok.inj h)).2.symm⟩
  | some mail => cases h

theorem loadExistingMessage_eq_ok {requested message : Message} (h : loadExistingMessage requested db = .ok message) :
    message.mailKey = requested.mailKey ∧ ∃ stored, db.mailMessages.find? requested.mailKey = some stored := by
  unfold loadExistingMessage at h
  split at h
  · contradiction
  · next stored hst =>
    cases h
    exact ⟨rfl, stored, hst⟩

end AtmCore
