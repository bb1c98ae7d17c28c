import AtmCore.MailboxQueries
import AtmCore.SendEnvelope
import AtmCore.Threading

/-! The thread check of a send. A message that names a parent is appended to a thread of the recipient's mailbox: by the
sender of its root, behind its last message, without an expiry, and with the acknowledgement requirement of the thread.
The mailbox is read for this, each message with its rendered text. -/

namespace AtmCore

def validateThreadAppend (envelope : MessageEnvelope) (inbox : List MessageEnvelope) (parentId : AtmMessageId) :
    Except AtmError MessageEnvelope :=
  let index : ThreadIndex := ⟨inbox⟩
  match index.message parentId with
  | none =>
    .error (.validation s!"thread parent message {parentId.toText} was not found in the recipient inbox")
  | some parent =>
    if isEphemeral parent then .error (.validation "ephemeral messages may not be updated or superseded")
    else
      match index.rootId parentId with
      | none =>
        .error (.validation s!"thread root could not be resolved for parent message {parentId.toText}")
      | some rootId =>
        match index.message rootId with
        | none =>
          .error (.validation s!"thread root message {rootId.toText} was not found in the recipient inbox")
        | some root =>
          if canonicalSenderIdentity root ≠ canonicalSenderIdentity envelope then
            .error (.validation "only the original sender may append details or supersede a message thread")
          else if index.hasSuccessor parentId then
            .error (.validation
              s!"message {parentId.toText} already has a successor; ATM threads are strictly linear")
          else
            let requiresAck := index.threadRequiresAck parentId
            .ok { envelope with
              requiresAck := requiresAck
              pendingAckAt := if requiresAck then some envelope.timestamp else none
              acknowledgedAt := none }

def prepareThreadedMessage (envelope : MessageEnvelope) (inbox : List MessageEnvelope) :
    Except AtmError MessageEnvelope :=
  match envelope.parentMessageId, envelope.threadMode, envelope.expiresAt with
  | none, none, _ => .ok envelope
  | some _, some _, some _ =>
    .error (.validation "ephemeral messages may not participate in a message thread")
  | some parentId, some _, none => validateThreadAppend envelope inbox parentId
  | _, _, _ => .error (.validation "thread updates must set both parent_message_id and thread_mode")

/-- The template side of the runtime: whether it has a catalogue, and its renderer, whose errors come in the context
of the message. -/
structure RenderPort where
  catalog : Bool
  composer : Option (TemplateRegistration → List (String × Value) → Except AtmError String)

/-- `render_message_body`: a decomposed message shows its rendered text. -/
def renderMessageBody (port : RenderPort) (key : MessageKey) (envelope : MessageEnvelope) (db : Db) :
    Except AtmError MessageEnvelope :=
  if port.catalog then
    let decomposed := db.mailMessages.rows.find? (fun row =>
      decide (row.messageKey = key) && row.templateSha.any (fun sha => (db.templates.find? sha).isSome))
    match decomposed.bind (fun row => row.templateSha.bind (fun sha => (db.templates.find? sha).map
        (fun template => (template, row.vars.getD [])))) with
    | none => .ok envelope
    | some (template, vars) =>
      let label := envelope.messageId.elim "<none>" AtmMessageId.toText
      match port.composer with
      | none =>
        .error (.mailboxRead s!"decomposed message_id {label} template_sha {template.sha} cannot be rendered because no TemplateComposer is installed")
      | some render => do
        let text ← render template vars
        return { envelope with text := text, summary := some (String.ofList (text.toList.take 160)) }
  else .ok envelope

/-- The oldest message first. -/
def oldestFirst (left right : Message) : Bool :=
  decide (left.envelope.timestamp.nanos < right.envelope.timestamp.nanos ∨
    (left.envelope.timestamp.nanos = right.envelope.timestamp.nanos ∧ left.messageKey.val ≤ right.messageKey.val))

def loadProjectionAsync (port : RenderPort) (now : IsoTimestamp) (mailbox : MailboxScope) (db : Db) :
    Except AtmError (List MessageEnvelope) :=
  ((listMessages now ⟨mailbox, none, none, none⟩ db).mergeSort oldestFirst).mapM
    (fun record => renderMessageBody port record.messageKey record.envelope db)

/-- `load_store_backed_mailbox_projection`: the synchronous path loads each listed message again, by its key. -/
def loadProjection (port : RenderPort) (now : IsoTimestamp) (mailbox : MailboxScope) (db : Db) :
    Except AtmError (List MessageEnvelope) :=
  (((listMessages now ⟨mailbox, none, none, none⟩ db).mergeSort oldestFirst).filterMap
    (fun row => loadMessageRecord mailbox row.messageKey db)).mapM
    (fun record => renderMessageBody port record.messageKey record.envelope db)

end AtmCore
