import Mathlib.Data.List.Basic

/-! The error value of the storage crates: a code from the catalogue, the rendered message and the cause reported by
SQLite. A message is the detail followed by the recovery guidance the catalogue keeps for the code; `detail` cuts it
off again, which is what the writer does before it wraps an error into another one. Codes that the modelled functions
neither produce nor test stand under `other` with their wire text. -/

namespace AtmCore

inductive AtmErrorCode where
  | addressParseFailed
  | messageValidationFailed
  | mailboxReadFailed
  | mailboxWriteFailed
  | daemonUnavailable
  | storeQueryFailed
  | internalError
  | taskNotFound
  | taskAlreadyActive
  | taskAlreadyClosed
  | taskNotCounterparty
  | taskStaleCounterparty
  | taskMoveInvalid
  | taskMaxActiveReached
  | templateContentNotUtf8
  | hookTimeout
  | hookMalformed
  | selfAddressedSendInvalid
  | messageIdConflict
  | other (wire : String)
  deriving DecidableEq

namespace AtmErrorCode

def asStr : AtmErrorCode → String
  | addressParseFailed => "ATM_ADDRESS_PARSE_FAILED"
  | messageValidationFailed => "ATM_MESSAGE_VALIDATION_FAILED"
  | mailboxReadFailed => "ATM_MAILBOX_READ_FAILED"
  | mailboxWriteFailed => "ATM_MAILBOX_WRITE_FAILED"
  | daemonUnavailable => "ATM_DAEMON_UNAVAILABLE"
  | storeQueryFailed => "ATM_STORE_QUERY_FAILED"
  | internalError => "ATM_INTERNAL_ERROR"
  | taskNotFound => "ATM_TASK_NOT_FOUND"
  | taskAlreadyActive => "ATM_TASK_ALREADY_ACTIVE"
  | taskAlreadyClosed => "ATM_TASK_ALREADY_CLOSED"
  | taskNotCounterparty => "ATM_TASK_NOT_COUNTERPARTY"
  | taskStaleCounterparty => "ATM_TASK_STALE_COUNTERPARTY"
  | taskMoveInvalid => "ATM_TASK_MOVE_INVALID"
  | taskMaxActiveReached => "ATM_TASK_MAX_ACTIVE_REACHED"
  | templateContentNotUtf8 => "TEMPLATE_CONTENT_NOT_UTF8"
  | hookTimeout => "ATM_HOOK_TIMEOUT"
  | hookMalformed => "ATM_HOOK_MALFORMED"
  | selfAddressedSendInvalid => "ATM_SELF_ADDRESSED_SEND_INVALID"
  | messageIdConflict => "ATM_MESSAGE_ID_CONFLICT"
  | other wire => wire

/-- The recovery text of the catalogue. The codes under `other` carry guidance of their own in the
source; no modelled function renders a message for one of them. -/
def guidance : AtmErrorCode → String
  | addressParseFailed => "Correct the ATM address or team selection and retry."
  | daemonUnavailable =>
    "Ensure atm-daemon binary is installed, then restore the single local daemon to a healthy " ++
      "serving state and retry."
  | mailboxReadFailed | mailboxWriteFailed =>
    "Repair mailbox access or wait for the competing operation, then retry."
  | messageValidationFailed | taskNotFound | taskAlreadyActive | taskAlreadyClosed
  | taskNotCounterparty | taskStaleCounterparty | taskMoveInvalid | taskMaxActiveReached
  | templateContentNotUtf8 | selfAddressedSendInvalid | messageIdConflict =>
    "Correct the invalid ATM request or state before retrying."
  | storeQueryFailed | internalError | hookTimeout | hookMalformed | other _ =>
    "Inspect the logged diagnostic context before retrying."

end AtmErrorCode

/-- The constraints of the schema whose violation the writer can meet. -/
inductive Constraint where
  | tasksPrimaryKey
  | tasksCheck
  | tasksPositionPerMember
  | mailMessageKeyCheck
  | mailMessageId
  | mailSingleSuccessor
  | cronScheduleKey
  | cronScheduleCheck
  | cronTransitionAt
  | cronDeliveryKey
  | teamRosterKey
  deriving DecidableEq

/-- The failures of SQLite the model distinguishes; the source keeps their rendered text as the cause. -/
inductive SqliteFailure where
  | constraint (violated : Constraint)
  | conversion (column : String)
  deriving DecidableEq

structure AtmError where
  code : AtmErrorCode
  message : String
  cause : Option SqliteFailure
  deriving DecidableEq

namespace AtmError

/-- What separates the detail of a rendered message from its recovery text. -/
def recoveryMark : String := "\n  Recovery: "

def new (code : AtmErrorCode) (detail : String) : AtmError where
  code := code
  message := detail ++ recoveryMark ++ code.guidance
  cause := none

def withRecovery (code : AtmErrorCode) (detail recovery : String) : AtmError where
  code := code
  message := detail ++ recoveryMark ++ recovery
  cause := none

def withCause (error : AtmError) (source : SqliteFailure) : AtmError :=
  { error with cause := some source }

def addressParse (message : String) : AtmError :=
  new .addressParseFailed ("address parse failed: " ++ message)

def validation (message : String) : AtmError := new .messageValidationFailed message

def validationWithRecovery (message recovery : String) : AtmError :=
  withRecovery .messageValidationFailed message recovery

def mailboxRead (message : String) : AtmError := new .mailboxReadFailed message

def mailboxWrite (message : String) : AtmError := new .mailboxWriteFailed message

def daemonUnavailable (message : String) : AtmError := new .daemonUnavailable message

def selfAddressedSendInvalid (message : String) : AtmError := new .selfAddressedSendInvalid message

def messageIdConflict (message : String) : AtmError := new .messageIdConflict message

/-- The characters before the first occurrence of `mark`, or all of them. -/
def before (mark : List Char) : List Char → List Char
  | [] => []
  | c :: cs => if mark.isPrefixOf (c :: cs) then [] else c :: before mark cs

/-- The detail of a rendered message, without the recovery text. -/
def detail (error : AtmError) : String :=
  String.ofList (before recoveryMark.toList error.message.toList)

end AtmError

/-- A failure of SQLite inside the writer: a violated constraint is the caller's fault, any other
failure that of the store. -/
def sqliteError (message : String) (source : SqliteFailure) : AtmError :=
  match source with
  | .constraint _ => (AtmError.validation message).withCause source
  | .conversion _ => (AtmError.mailboxWrite message).withCause source

def taskNotFound (detail : String) : AtmError := .new .taskNotFound detail
def taskAlreadyClosed (detail : String) : AtmError := .new .taskAlreadyClosed detail
def taskAlreadyActive (detail : String) : AtmError := .new .taskAlreadyActive detail
def taskNotCounterparty (detail : String) : AtmError := .new .taskNotCounterparty detail
def taskStaleCounterparty (detail : String) : AtmError := .new .taskStaleCounterparty detail
def taskMoveInvalid (detail : String) : AtmError := .new .taskMoveInvalid detail

def taskMaxActiveReached (detail recovery : String) : AtmError :=
  .withRecovery .taskMaxActiveReached detail recovery

/-- The codes whose refusal the writer audits in the task log. -/
def isTaskRejection : AtmErrorCode → Bool
  | .taskNotFound | .taskAlreadyActive | .taskAlreadyClosed | .taskNotCounterparty
  | .taskStaleCounterparty | .taskMoveInvalid | .taskMaxActiveReached => true
  | _ => false

@[simp] theorem sqliteError_cause {message : String} {source : SqliteFailure} :
    (sqliteError message source).cause = some source := by
  cases source <;> rfl

/-- How a writer function ends when it does not return: with an error value, or by unwinding, which the
writer catches around each queued operation. -/
inductive Fault where
  | err (error : AtmError)
  | panic
  deriving DecidableEq

abbrev Outcome (α : Type) := Except Fault α

def Outcome.fail {α : Type} (error : AtmError) : Outcome α := .error (.err error)

/-- A function that reports an error value, called from one that may also unwind. -/
def Outcome.lift {α : Type} : Except AtmError α → Outcome α
  | .ok a => .ok a
  | .error e => .error (.err e)

end AtmCore
