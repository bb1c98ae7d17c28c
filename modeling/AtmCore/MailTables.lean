import AtmCore.Envelope
import AtmCore.TableRows

/-! The mail tables of the shared database: the immutable message rows with their searchable columns, the mutable
state row of each message, the search projections, the template catalogue, the seen watermarks and the roster
metadata. A decomposed message has its template and variables in columns of its own. -/

namespace AtmCore

structure WorkflowColumns where
  scopeKind : String
  scopeId : String
  state : String
  stage : String
  transition : String
  iteration : Option String
  appliedTemplateTags : List String
  effectiveTags : List String

structure MailRow where
  team : TeamName
  agent : AgentName
  messageKey : MessageKey
  envelopeJson : StorageEnvelope
  fromAgent : AgentName
  sourceChatId : Option ChatId
  destinationChatId : Option ChatId
  messageText : Option String
  category : Option String
  contentFormat : Option String
  tags : List String
  summary : Option String
  messageAt : IsoTimestamp
  messageId : Option AtmMessageId
  parentMessageId : Option AtmMessageId
  threadMode : Option ThreadMode
  recordedAt : IsoTimestamp
  templateSha : Option String
  vars : Option (List (String × Value))
  workflow : Option WorkflowColumns

def MailRow.key (row : MailRow) : MailKey := (row.team, row.agent, row.messageKey)

structure MessageStateRow where
  team : TeamName
  agent : AgentName
  messageKey : MessageKey
  read : Bool
  pendingAckAt : Option IsoTimestamp
  acknowledgedAt : Option IsoTimestamp
  expiresAt : Option IsoTimestamp
  deletedAt : Option IsoTimestamp
  updatedAt : IsoTimestamp
  nudgePendingAt : Option IsoTimestamp
  nudgeAttempts : Nat
  deriving DecidableEq

def MessageStateRow.key (row : MessageStateRow) : MailKey := (row.team, row.agent, row.messageKey)

structure SearchDocument where
  team : TeamName
  agent : AgentName
  messageKey : MessageKey
  messageId : Option AtmMessageId
  messageAt : IsoTimestamp
  bodyText : String
  summary : String
  tags : String
  varValues : String
  fromAgent : AgentName
  deriving DecidableEq

def SearchDocument.key (row : SearchDocument) : MailKey := (row.team, row.agent, row.messageKey)

structure TemplateRegistration where
  sha : String
  templateType : Option String
  templateName : Option String
  contentBytes : List UInt8
  contentText : String
  outputFormat : String
  frontmatter : Value
  firstSeenAt : IsoTimestamp
  firstSeenBy : AgentName

structure TemplateDocument where
  templateSha : String
  contentText : String
  deriving DecidableEq

structure MailboxScope where
  team : TeamName
  agent : AgentName
  deriving DecidableEq

structure WatermarkRow where
  mailbox : MailboxScope
  watermark : IsoTimestamp
  deriving DecidableEq

/-- The columns of `team_roster` that the ledger reads. The text of `metadata_json` need not be JSON. -/
structure RosterRow where
  member : TeamName × AgentName
  metadata : Option Value

mutual

/-- `flatten_value`: the scalars of a JSON value in order, object members by name. -/
def flattenValue : Value → List String
  | .null => ["null"]
  | .bool value => [toString value]
  | .posInt value => [toString value]
  | .negInt value => [toString value]
  | .float text => [text]
  | .string value => [value]
  | .array items => flattenItems items
  | .object members =>
    ((flattenMembers members).insertionSort (fun a b => a.1 ≤ b.1)).flatMap Prod.snd

def flattenItems : List Value → List String
  | [] => []
  | item :: items => flattenValue item ++ flattenItems items

def flattenMembers : List (String × Value) → List (String × List String)
  | [] => []
  | (name, value) :: members => (name, flattenValue value) :: flattenMembers members

end

def flattenJsonText (value : Value) : String := " ".intercalate (flattenValue value)

end AtmCore
