import AtmCore.CronEngine

/-! The outbox as it is stored. A delivery intent is kept as its key and a JSON payload of plain texts, and read back
through the parsers of names, ids, error codes and diagnostics. A row of a committed intent is read back as that intent:
ready to be sent while it is pending, and in need of reconciliation once its handoff is unknown. -/

namespace AtmCore

open Fallible List

/-- The parser of message ids, which is not of this repository. -/
structure CronCodec where
  parseMessageId : String → Except String AtmMessageId
  parseMessageId_toText : ∀ id, parseMessageId id.toText = .ok id

inductive StoredEvent where
  | error (failureKind : CronFailureKind) (code : Option String) (detail : String)
  | stopped (message : String)

inductive StoredIntent where
  | lifecycle (team recipient name : String) (event : StoredEvent)
  | moduleMail (messageId team recipient name : String) (output : CronModuleOutput)

inductive IntentKind where
  | lifecycle
  | moduleMail
  deriving DecidableEq

/-- The columns `pending` selects. -/
structure IntentColumns where
  scheduleId : Nat
  generation : Nat
  transitionSeq : Nat
  outputIndex : Option Nat
  kind : IntentKind
  payload : StoredIntent
  state : CronDeliveryState
  retryCause : Option String

inductive CronDeliveryKey where
  | lifecycle (scheduleId generation transitionSeq : Nat)
  | moduleMail (scheduleId generation transitionSeq outputIndex : Nat)

/-- A row of the pending query says whether it may be sent again. -/
inductive PendingCronDelivery where
  | readyToSend (intent : CronDeliveryIntent)
  | reconciliationRequired (intent : CronDeliveryIntent) (retryCause : String)
  deriving DecidableEq

def PendingCronDelivery.intent : PendingCronDelivery → CronDeliveryIntent
  | readyToSend intent | reconciliationRequired intent _ => intent

def cronDiagnosticMaxBytes : Nat := 4096
def cronDeliveryRetryCauseMaxBytes : Nat := 1024

def hookMalformed (detail : String) : AtmError := .new .hookMalformed ("HOOK.MALFORMED: " ++ detail)

def parseDiagnostic (value : String) : Except AtmError String :=
  let value := String.ofList (value.toList.map (fun c => if c = '\r' ∨ c = '\n' then ' ' else c))
  if trim value = "" ∨ cronDiagnosticMaxBytes < value.utf8ByteSize then
    .error (hookMalformed s!"cron diagnostic must contain 1..={cronDiagnosticMaxBytes} bytes")
  else .ok value

def parseRetryCause (value : String) : Except AtmError String :=
  let words := (value.toList.splitBy (fun a b => isWhitespace a == isWhitespace b)).filter
    (fun word => !word.all isWhitespace)
  let value := " ".intercalate (words.map String.ofList)
  if trim value = "" ∨ cronDeliveryRetryCauseMaxBytes < value.utf8ByteSize then
    .error (hookMalformed s!"cron delivery retry cause must contain 1..={cronDeliveryRetryCauseMaxBytes} bytes")
  else .ok value

/-- `AtmErrorCode::from_str`, where `other` stands for the codes of the catalogue that have no name here. -/
def AtmErrorCode.fromStr (value : String) : AtmErrorCode :=
  ([addressParseFailed, messageValidationFailed, mailboxReadFailed, mailboxWriteFailed, daemonUnavailable,
    storeQueryFailed, internalError, taskNotFound, taskAlreadyActive, taskAlreadyClosed, taskNotCounterparty,
    taskStaleCounterparty, taskMoveInvalid, taskMaxActiveReached, templateContentNotUtf8, hookTimeout, hookMalformed,
    selfAddressedSendInvalid, messageIdConflict].find? (fun code => decide (code.asStr = value))).getD (.other value)

def StoredEvent.ofEvent : CronLifecycleEvent → StoredEvent
  | .error failure => .error failure.kind (failure.code.map AtmErrorCode.asStr) failure.detail
  | .stopped message => .stopped message

def encodeIntent (intent : CronDeliveryIntent) : StoredIntent :=
  match intent.payload with
  | .lifecycle event => .lifecycle intent.team.val intent.recipient.val intent.name (.ofEvent event)
  | .moduleMail messageId output =>
    .moduleMail messageId.toText intent.team.val intent.recipient.val intent.name output

def CronIntentPayload.kind : CronIntentPayload → IntentKind
  | lifecycle _ => .lifecycle
  | moduleMail _ _ => .moduleMail

/-- What `persist_intent` and `mark_delivered` leave of a row. -/
def CronIntentRow.columns (row : CronIntentRow) : IntentColumns where
  scheduleId := row.intent.scheduleId
  generation := row.intent.generation
  transitionSeq := row.intent.transitionSeq
  outputIndex := row.intent.outputIndex
  kind := row.intent.payload.kind
  payload := encodeIntent row.intent
  state := row.state
  retryCause := row.retryCause

def intentInternal (detail : String) : AtmError := storedRowInternal "cron_delivery_intent" detail

/-- A text that does not parse is an internal error of the row. -/
def reread {α : Type} (parsed : Except AtmError α) : Except AtmError α :=
  parsed.mapError (fun error => intentInternal error.message)

def rereadName (name : String) : Except AtmError String :=
  if name.utf8ByteSize = 0 ∨ cronNameMaxBytes < name.utf8ByteSize then
    .error (intentInternal "HOOK.MODULE_INVALID: name must contain 1..=64 bytes")
  else .ok name

def StoredEvent.decode : StoredEvent → Except AtmError CronLifecycleEvent
  | .error kind code detail => do
    let detail ← reread (parseDiagnostic detail)
    return .error ⟨kind, code.map AtmErrorCode.fromStr, detail⟩
  | .stopped message => do
    let message ← reread (parseDiagnostic message)
    return .stopped message

section Decode

variable (codec : CronCodec)

def decodeIntent (key : CronDeliveryKey) (stored : StoredIntent) : Except AtmError CronDeliveryIntent :=
  match key, stored with
  | .lifecycle scheduleId generation transitionSeq, .lifecycle team recipient name event => do
    let event ← event.decode
    let team ← reread (Segment.parse .team team)
    let recipient ← reread (Segment.parse .agent recipient)
    let name ← rereadName name
    return ⟨scheduleId, generation, transitionSeq, none, team, recipient, name, .lifecycle event⟩
  | .moduleMail scheduleId generation transitionSeq outputIndex, .moduleMail messageId team recipient name output => do
    let messageId ← (codec.parseMessageId messageId).mapError intentInternal
    let team ← reread (Segment.parse .team team)
    let recipient ← reread (Segment.parse .agent recipient)
    let name ← rereadName name
    return ⟨scheduleId, generation, transitionSeq, some outputIndex, team, recipient, name,
      .moduleMail messageId output⟩
  | _, _ => .error (intentInternal "stored delivery kind does not match its key")

def IntentColumns.key (columns : IntentColumns) : Except AtmError CronDeliveryKey :=
  if 2 ^ 32 ≤ columns.generation then .error (intentInternal "invalid generation")
  else if columns.generation = 0 then .error (intentInternal "zero generation")
  else
    match columns.kind with
    | .lifecycle => .ok (.lifecycle columns.scheduleId columns.generation columns.transitionSeq)
    | .moduleMail =>
      match columns.outputIndex with
      | none => .error (intentInternal "module output missing index")
      | some index =>
        if 2 ^ 16 ≤ index then .error (intentInternal "invalid output index")
        else .ok (.moduleMail columns.scheduleId columns.generation columns.transitionSeq index)

def decodePending (columns : IntentColumns) : Except AtmError PendingCronDelivery := do
  let key ← columns.key
  let intent ← decodeIntent codec key columns.payload
  if columns.state = .unknown then
    match columns.retryCause with
    | none => .error (intentInternal "unknown delivery missing retry cause")
    | some cause =>
      let cause ← reread (parseRetryCause cause)
      return .reconciliationRequired intent cause
  else return .readyToSend intent

/-- `CronTransitionStore::pending`. One row that does not decode fails the whole query. -/
def pendingQuery (limit : Nat) (intents : List CronIntentRow) : Except AtmError (List PendingCronDelivery) :=
  (pendingDeliveries limit intents).mapM (fun row => decodePending codec row.columns)

end Decode

/-! Rows that are read back. -/

/-- The texts of an event are values of their types: a diagnostic is one normalised line, and a code is in the
catalogue under its own name. -/
def CronLifecycleEvent.Typed : CronLifecycleEvent → Prop
  | .error failure => parseDiagnostic failure.detail = .ok failure.detail ∧
      failure.code.map (fun code => AtmErrorCode.fromStr code.asStr) = failure.code
  | .stopped message => parseDiagnostic message = .ok message

structure CronDeliveryIntent.Readable (intent : CronDeliveryIntent) : Prop where
  generation : 1 ≤ intent.generation ∧ intent.generation < 2 ^ 32
  name : parseCronName intent.name = .ok intent.name
  shape : match intent.payload with
    | .lifecycle event => intent.outputIndex = none ∧ event.Typed
    | .moduleMail _ _ => ∃ index, intent.outputIndex = some index ∧ index < 2 ^ 16

structure CronIntentRow.Readable (row : CronIntentRow) : Prop where
  intent : row.intent.Readable
  cause : row.state = .unknown → ∃ cause, row.retryCause = some cause ∧ parseRetryCause cause = .ok cause

def CronIntentRow.delivery (row : CronIntentRow) : PendingCronDelivery :=
  match row.state, row.retryCause with
  | .unknown, some cause => .reconciliationRequired row.intent cause
  | _, _ => .readyToSend row.intent

theorem StoredEvent.decode_ofEvent {event : CronLifecycleEvent} (h : event.Typed) :
    (StoredEvent.ofEvent event).decode = .ok event := by
  cases event with
  | error failure =>
    obtain ⟨hdetail, hcode⟩ := h
    simp only [StoredEvent.ofEvent, StoredEvent.decode, hdetail, reread, Except.mapError, bind_ok, Option.map_map]
    exact congrArg (fun code => Except.ok (CronLifecycleEvent.error ⟨failure.kind, code, failure.detail⟩)) hcode
  | stopped message =>
    simp only [StoredEvent.ofEvent, StoredEvent.decode, show parseDiagnostic message = .ok message from h, reread,
      Except.mapError, bind_ok]
    rfl

theorem rereadName_of_parsed {name : String} (h : parseCronName name = .ok name) : rereadName name = .ok name := by
  rw [parseCronName] at h
  rw [rereadName]
  split at h
  · cases h
  · next hbounds => rw [if_neg hbounds]

variable {row : CronIntentRow} {intents : List CronIntentRow}

/-- An intent is decoded from what it was encoded to, message id included. -/
theorem decodeIntent_encodeIntent (codec : CronCodec) {intent : CronDeliveryIntent} (h : intent.Readable)
    (hrow : row.intent = intent) :
    (row.columns.key >>= fun key => decodeIntent codec key (encodeIntent intent)) = .ok intent := by
  subst hrow
  obtain ⟨⟨hone, hbd⟩, hname, hshape⟩ := h
  have hkey : row.columns.generation = row.intent.generation := rfl
  rw [IntentColumns.key, hkey, if_neg (by omega), if_neg (by omega)]
  obtain ⟨⟨scheduleId, generation, transitionSeq, outputIndex, team, recipient, name, payload⟩, state, receipt,
    cause⟩ :=
    row
  cases payload with
  | lifecycle event =>
    obtain ⟨hidx, htyped⟩ := hshape
    have hidx' : outputIndex = none := hidx
    subst hidx'
    simp only [CronIntentRow.columns, CronIntentPayload.kind, bind_ok, encodeIntent, decodeIntent,
      StoredEvent.decode_ofEvent htyped, Segment.parse_val, reread, Except.mapError, rereadName_of_parsed hname]
    rfl
  | moduleMail messageId output =>
    obtain ⟨index, hidx, hindexBound⟩ := hshape
    have hidx' : outputIndex = some index := hidx
    subst hidx'
    simp only [CronIntentRow.columns, CronIntentPayload.kind, encodeIntent, if_neg (Nat.not_le.mpr hindexBound),
      bind_ok, decodeIntent, codec.parseMessageId_toText, Segment.parse_val, reread, Except.mapError,
      rereadName_of_parsed hname]
    rfl

theorem decodePending_columns (codec : CronCodec) (h : row.Readable) :
    decodePending codec row.columns = .ok row.delivery := by
  have hint := decodeIntent_encodeIntent codec h.intent rfl
  obtain ⟨key, hkey, hdec⟩ := bind_eq_ok.mp hint
  have hpayload : row.columns.payload = encodeIntent row.intent := rfl
  have hstate : row.columns.state = row.state := rfl
  have hcols : row.columns.retryCause = row.retryCause := rfl
  rw [decodePending, hkey, bind_ok, hpayload, hdec, bind_ok, hstate, hcols, CronIntentRow.delivery]
  by_cases hunknown : row.state = .unknown
  · obtain ⟨cause, hcause, hparsed⟩ := h.cause hunknown
    rw [if_pos hunknown, hcause, hunknown]
    simp only [hparsed, reread, Except.mapError, bind_ok]
    rfl
  · rw [if_neg hunknown]
    cases hstate : row.state with
    | unknown => exact absurd hstate hunknown
    | _ => rfl

theorem mem_of_mem_pendingDeliveries {limit : Nat} (h : row ∈ pendingDeliveries limit intents) :
    row ∈ intents ∧ (row.state = .pending ∨ row.state = .unknown) := by
  have hsort := mem_of_mem_take h
  rw [mem_mergeSort] at hsort
  refine ⟨mem_of_mem_filter hsort, ?_⟩
  simpa using of_mem_filter hsort

theorem pendingQuery_of_readable (codec : CronCodec) (limit : Nat) (h : ∀ row ∈ intents, row.Readable) :
    pendingQuery codec limit intents = .ok ((pendingDeliveries limit intents).map CronIntentRow.delivery) := by
  exact mapM_eq_ok_map (fun row hrow => decodePending_columns codec (h row (mem_of_mem_pendingDeliveries hrow).1))

end AtmCore
