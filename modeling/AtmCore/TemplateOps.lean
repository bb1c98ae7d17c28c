import AtmCore.Admission

/-! The template catalogue side of the writer: registering an immutable template, recording the decomposed
columns of a message that is already stored, and admitting a template-sourced message, which is an
ordinary admission followed by the decomposition when the key was new. -/

namespace AtmCore

inductive TemplateRegistrationOutcome where
  | inserted
  | alreadyRegistered
  deriving DecidableEq

inductive DecomposedMessageAdmissionOutcome where
  | inserted (template : TemplateRegistrationOutcome)
  | messageAlreadyPresent
  deriving DecidableEq

def maxInstanceTags : Nat := 128

def DecomposedMessageAdmission.validate (world : World) (admission : DecomposedMessageAdmission) :
    Except AtmError Unit := do
  world.validateTemplate admission.template
  if maxInstanceTags < admission.message.tags.length then
    .error (.validation s!"decomposed message has too many instance tags (maximum {maxInstanceTags})")
  else if admission.message.templateSha ≠ admission.template.sha then
    .error (.validation "decomposed message template_sha must match the registered template SHA")
  else
    world.validateWorkflow admission

def TemplateMessageAdmission.validate (world : World) (admission : TemplateMessageAdmission) :
    Except AtmError Unit := do
  admission.decomposition.validate world
  if admission.record.messageKey ≠ admission.decomposition.message.key then
    .error (.validation "template message admission key must match its decomposed record key")
  else .ok ()

/-- `insert_template_if_absent`; the search document is synchronised either way. -/
def insertTemplateIfAbsent (request : TemplateRegistration) (db : Db) :
    TemplateRegistrationOutcome × Db :=
  let documents := db.templateDocuments.upsert ⟨request.sha, request.contentText⟩
    (fun row => { row with contentText := request.contentText }) (fun _ => rfl)
  match db.templates.insertNew request with
  | some templates => (.inserted, { db with templates := templates, templateDocuments := documents })
  | none => (.alreadyRegistered, { db with templateDocuments := documents })

def executeTemplateRegistration (world : World) (request : TemplateRegistration) (db : Db) :
    Outcome (TemplateRegistrationOutcome × Db) := do
  Outcome.lift (world.validateTemplate request)
  return insertTemplateIfAbsent request db

def DecomposedMessageRecord.apply (message : DecomposedMessageRecord) (row : MailRow) : MailRow :=
  { row with
    templateSha := some message.templateSha
    vars := some message.vars
    category := message.category
    tags := message.tags
    contentFormat := message.contentFormat
    messageText := none
    workflow := message.workflow }

/-- The rows `WHERE message_key = ? AND template_sha IS NULL` selects. -/
def undecomposed (key : MessageKey) (row : MailRow) : Bool :=
  decide (row.messageKey = key) && row.templateSha.isNone

/-- The columns are written to exactly one row, and its search document is rebuilt from the first row of
the key. -/
def persistDecomposedMessageColumns (message : DecomposedMessageRecord) (db : Db) : Outcome Db :=
  if (db.mailMessages.rows.filter (undecomposed message.key)).length ≠ 1 then
    Outcome.fail (.mailboxWrite "decomposed admission did not update exactly one canonical message")
  else
    let mail := db.mailMessages.mapRows
      (fun row => if undecomposed message.key row then message.apply row else row)
      (fun row => by split <;> rfl)
    match mail.rows.find? (fun row => decide (row.messageKey = message.key)) with
    | none => .ok { db with mailMessages := mail }
    | some row =>
      .ok { db with
        mailMessages := mail
        searchDocuments := syncMessageProjection db.searchDocuments row }

def executeDecomposedMessageAdmission (world : World) (admission : DecomposedMessageAdmission) (db : Db) :
    Outcome (DecomposedMessageAdmissionOutcome × Db) := do
  Outcome.lift (admission.validate world)
  let (template, db) := insertTemplateIfAbsent admission.template db
  match db.mailMessages.rows.find? (fun row => decide (row.messageKey = admission.message.key)) with
  | none =>
    Outcome.fail (.mailboxWrite "decomposed admission requires an existing canonical message")
  | some row =>
    match row.templateSha with
    | some existing =>
      if existing = admission.message.templateSha then return (.messageAlreadyPresent, db)
      else
        Outcome.fail (.validation
          "an existing decomposed message cannot be rebound to a different template SHA")
    | none =>
      let db ← persistDecomposedMessageColumns admission.message db
      return (.inserted template, db)

def executeAdmitTemplateMessage (world : World) (ambient : Ambient) (admission : TemplateMessageAdmission)
    (db : Db) : Outcome (UpsertResult × Db) := do
  Outcome.lift (admission.validate world)
  let (result, db) ← upsertMessage world ambient admission.record admission.provenance db
  if result.inserted then do
    let (_, db) ← executeDecomposedMessageAdmission world admission.decomposition db
    return ({ result with existing := none, alreadyClosed := none }, db)
  else
    return (UpsertResult.plain false result.existing, db)

end AtmCore
