import AtmCore.MailStore

/-! The reads of a mailbox. A row is live as long as its state is not deleted and has no expiry or one in a later
millisecond than now: the expiry and the reading of the clock are compared as texts, and the second of them ends after
the milliseconds. Every listing has the newest row first. The mailbox reader of the daemon compiles the filters of a
request to SQL, where a column of the state that is not set gives way to the member of the stored envelope. -/

namespace AtmCore

/-- The milliseconds of an instant, rounded down. -/
def IsoTimestamp.millis (instant : IsoTimestamp) : Int := instant.nanos / 1000000

/-- `expires_at > strftime('%Y-%m-%dT%H:%M:%fZ', 'now')`, on two texts with a year of four digits. -/
def expiresAfter (now expiresAt : IsoTimestamp) : Bool := decide (now.millis < expiresAt.millis)

/-- The same for the text in the stored envelope, which ends in `Z` and has no fraction on a full second: `12:00:00Z` is
after every reading of the clock within this second. -/
def memberExpiresAfter (now expiresAt : IsoTimestamp) : Bool :=
  if expiresAt.nanos % 1000000000 = 0 then decide (now.nanos / 1000000000 ≤ expiresAt.nanos / 1000000000)
  else expiresAfter now expiresAt

def MailRow.within (mailbox : MailboxScope) (row : MailRow) : Bool :=
  decide (row.team = mailbox.team) && decide (row.agent = mailbox.agent)

variable {mailbox : MailboxScope} {row : MailRow}

theorem MailRow.within_congr {row' : MailRow} (h : row'.key = row.key) :
    row'.within mailbox = row.within mailbox := by
  rw [MailRow.key, MailRow.key, Prod.mk.injEq, Prod.mk.injEq] at h
  rw [MailRow.within, MailRow.within, h.1, h.2.1]

theorem MailRow.within_eq_true : row.within mailbox = true ↔ row.team = mailbox.team ∧ row.agent = mailbox.agent := by
  rw [MailRow.within, Bool.and_eq_true, decide_eq_true_iff, decide_eq_true_iff]

def Db.stateOf (db : Db) (row : MailRow) : Option MessageStateRow := db.messageStates.find? row.key

/-- `deleted_at IS NULL AND (expires_at IS NULL OR expires_at > now)`. -/
def stateLive (now : IsoTimestamp) (state : Option MessageStateRow) : Bool :=
  state.all (fun state => state.deletedAt.isNone && state.expiresAt.all (expiresAfter now))

def applyLoadedState (envelope : MessageEnvelope) (state : Option MessageStateRow) : MessageEnvelope :=
  match state with
  | none => envelope
  | some state => withState envelope state.read state.pendingAckAt state.acknowledgedAt state.expiresAt

def Db.messageOf (db : Db) (row : MailRow) : Message where
  team := row.team
  agent := row.agent
  messageKey := row.messageKey
  envelope := applyLoadedState row.envelopeJson.decode (db.stateOf row)

/-- `ORDER BY message_at DESC, message_key DESC`. -/
def newestFirst (left right : MailRow) : Bool :=
  decide (right.messageAt.nanos < left.messageAt.nanos ∨
    (right.messageAt.nanos = left.messageAt.nanos ∧ right.messageKey.val ≤ left.messageKey.val))

def limited {α : Type} (limit : Option Nat) (rows : List α) : List α :=
  match limit with
  | none => rows
  | some n => rows.take n

structure MessageQuery where
  mailbox : MailboxScope
  sender : Option AgentName
  taskId : Option TaskId
  limit : Option Nat

def liveRows (now : IsoTimestamp) (mailbox : MailboxScope) (db : Db) : List MailRow :=
  db.mailMessages.rows.filter (fun row => row.within mailbox && stateLive now (db.stateOf row))

def listMessages (now : IsoTimestamp) (query : MessageQuery) (db : Db) : List Message :=
  let rows := (liveRows now query.mailbox db).filter (fun row =>
    query.sender.all (fun sender => decide (row.fromAgent = sender)) &&
      query.taskId.all (fun taskId => decide (row.envelopeJson.taskId = some taskId)))
  (limited query.limit (rows.mergeSort newestFirst)).map db.messageOf

/-- The message of a key, in whatever mailbox it is first. -/
def loadMessage (key : MessageKey) (db : Db) : Option Message :=
  (db.mailMessages.rows.find? (fun row => decide (row.messageKey = key))).map db.messageOf

def loadMessageRecord (mailbox : MailboxScope) (key : MessageKey) (db : Db) : Option Message :=
  (loadMessage key db).filter
    (fun message => decide (message.team = mailbox.team) && decide (message.agent = mailbox.agent))

structure MailboxBucketCounts where
  unread : Nat
  pendingAck : Nat
  history : Nat
  deriving DecidableEq

/-- `COALESCE(mail_message_states.read, json_extract(mail_messages.envelope_json, '$.read'), 0)`. -/
def Db.isRead (db : Db) (row : MailRow) : Bool :=
  ((db.stateOf row).map MessageStateRow.read).getD row.envelopeJson.read

/-- A row of the `visible` view of the bucket query. -/
structure VisibleRow where
  messageId : Option AtmMessageId
  parentMessageId : Option AtmMessageId
  isRead : Bool
  pendingAckAt : Option IsoTimestamp
  acknowledgedAt : Option IsoTimestamp
  expiresAt : Option IsoTimestamp

def Db.visibleRow (db : Db) (row : MailRow) : VisibleRow where
  messageId := row.messageId
  parentMessageId := row.parentMessageId
  isRead := db.isRead row
  pendingAckAt := (db.stateOf row).bind MessageStateRow.pendingAckAt
  acknowledgedAt := (db.stateOf row).bind MessageStateRow.acknowledgedAt
  expiresAt := (db.stateOf row).bind MessageStateRow.expiresAt

/-- `pending_ack_at IS NOT NULL AND acknowledged_at IS NULL`. -/
def VisibleRow.pending (row : VisibleRow) : Bool := row.pendingAckAt.isSome && row.acknowledgedAt.isNone

/-- `message_id IS NULL OR NOT EXISTS (… successor …)`. -/
def VisibleRow.terminal (visible : List VisibleRow) (row : VisibleRow) : Bool :=
  row.messageId.all (fun id => !(visible.any (fun successor => decide (successor.parentMessageId = some id))))

def mailboxBucketCounts (now : IsoTimestamp) (mailbox : MailboxScope) (db : Db) : MailboxBucketCounts :=
  let visible := (liveRows now mailbox db).map db.visibleRow
  let terminal := visible.filter (VisibleRow.terminal visible)
  let displayable := terminal.filter (fun row => row.expiresAt.isNone || !row.isRead)
  { unread := (displayable.filter (fun row => !row.pending && !row.isRead)).length
    pendingAck := (displayable.filter VisibleRow.pending).length
    history := (displayable.filter (fun row => !row.pending && row.isRead)).length }

inductive SearchMailboxSelection where
  | actionable
  | unread
  | pendingAck
  | all
  deriving DecidableEq

/-- The filters that the mailbox reader sets. -/
structure SearchFilters where
  mailbox : MailboxScope
  fromAgent : Option AgentName
  messageId : Option AtmMessageId
  taskId : Option TaskId
  contains : Option String
  since : Option IsoTimestamp
  currentOnly : Bool
  mailboxSelection : Option SearchMailboxSelection

/-- A text contains another, in any mixture of ASCII cases. -/
def containsIgnoreAsciiCase (text needle : String) : Bool :=
  ((text.toList.map Char.toLower).tails).any (fun tail => (needle.toList.map Char.toLower).isPrefixOf tail)

/-- `COALESCE(ms.…, json_extract(m.envelope_json, …))`. -/
def coalesced {α : Type} (db : Db) (row : MailRow) (column : MessageStateRow → Option α)
    (member : StorageEnvelope → Option α) : Option α :=
  ((db.stateOf row).bind column).or (member row.envelopeJson)

namespace SearchFilters

def pendingAckAt (db : Db) (row : MailRow) : Option IsoTimestamp :=
  coalesced db row MessageStateRow.pendingAckAt StorageEnvelope.pendingAckAt

def acknowledgedAt (db : Db) (row : MailRow) : Option IsoTimestamp :=
  coalesced db row MessageStateRow.acknowledgedAt StorageEnvelope.acknowledgedAt

def pending (db : Db) (row : MailRow) : Bool := (pendingAckAt db row).isSome && (acknowledgedAt db row).isNone

/-- The state filters every query has. The two sources of an expiry write it differently. -/
def live (now : IsoTimestamp) (db : Db) (row : MailRow) : Bool :=
  (db.stateOf row).all (fun state => state.deletedAt.isNone) &&
    match (db.stateOf row).bind MessageStateRow.expiresAt with
    | some expiresAt => expiresAfter now expiresAt
    | none => row.envelopeJson.expiresAt.all (memberExpiresAfter now)

def selects (selection : SearchMailboxSelection) (db : Db) (row : MailRow) : Bool :=
  match selection with
  | .actionable => pending db row || (!pending db row && !db.isRead row)
  | .unread => !pending db row && !db.isRead row
  | .pendingAck => pending db row
  | .all => true

/-- `push_current_only_filter`. -/
def current (now : IsoTimestamp) (db : Db) (row : MailRow) : Bool :=
  row.messageId.all (fun id => !(db.mailMessages.rows.any (fun successor =>
    decide (successor.team = row.team) && decide (successor.agent = row.agent) &&
      decide (successor.parentMessageId = some id) && live now db successor)))

/-- `compile_sql_filters_for`, for the aliases of the mailbox. -/
def admits (filters : SearchFilters) (now : IsoTimestamp) (db : Db) (row : MailRow) : Bool :=
  row.within filters.mailbox &&
  filters.fromAgent.all (fun sender => decide (row.fromAgent = sender)) &&
  filters.messageId.all (fun id => decide (row.messageId = some id)) &&
  filters.taskId.all (fun taskId => decide (row.envelopeJson.taskId = some taskId)) &&
  filters.contains.all (fun needle => containsIgnoreAsciiCase (row.summary.getD "") needle ||
    containsIgnoreAsciiCase (row.messageText.getD "") needle) &&
  filters.since.all (fun since => decide (since.nanos ≤ row.messageAt.nanos)) &&
  live now db row &&
  filters.mailboxSelection.all (fun selection => selects selection db row) &&
  (!filters.currentOnly || current now db row)

end SearchFilters

def listMatchingMessages (now : IsoTimestamp) (filters : SearchFilters) (limit : Option Nat) (db : Db) : List Message :=
  (limited limit ((db.mailMessages.rows.filter (filters.admits now db)).mergeSort newestFirst)).map db.messageOf

def countMessages (now : IsoTimestamp) (filters : SearchFilters) (db : Db) : Nat :=
  (db.mailMessages.rows.filter (filters.admits now db)).length

def countBuckets (now : IsoTimestamp) (filters : SearchFilters) (db : Db) : MailboxBucketCounts :=
  let rows := db.mailMessages.rows.filter (filters.admits now db)
  { unread := (rows.filter (fun row => !SearchFilters.pending db row && !db.isRead row)).length
    pendingAck := (rows.filter (SearchFilters.pending db)).length
    history := (rows.filter (fun row => !SearchFilters.pending db row && db.isRead row)).length }

end AtmCore
