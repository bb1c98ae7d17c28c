import AtmCore.CronTables
import AtmCore.MailTables
import AtmCore.TaskTables

/-! The shared database and what a write reads besides it. All components keep their tables in one SQLite file behind
one writer. A write also reads the clock and draws fresh message ids: `Ambient` gives the readings of one write by their
place in it, and the order in which each `UPDATE` visits its rows. `World` has what lies outside the modelled source. -/

namespace AtmCore

open Rows

structure DiagnosticEvent where
  tsUnixMs : Int
  level : String
  component : String
  code : Option String
  correlationId : Option String
  origin : String
  message : String
  detail : Option String
  deriving DecidableEq

structure DiagnosticRow where
  id : Nat
  event : DiagnosticEvent
  deriving DecidableEq

structure Db where
  mailMessages : Table MailRow.key
  messageStates : Table MessageStateRow.key
  searchDocuments : Table SearchDocument.key
  templates : Table TemplateRegistration.sha
  templateDocuments : Table TemplateDocument.templateSha
  seenWatermarks : Table WatermarkRow.mailbox
  teamRoster : Table RosterRow.member
  diagnosticEvents : List DiagnosticRow
  tasks : TaskTable
  taskEvents : List TaskEventColumns
  cronSchedules : Table CronScheduleRow.id
  cronEvents : List CronEventRow
  cronIntents : List CronIntentRow

/-- A database whose schema was just created. -/
def Db.empty : Db where
  mailMessages := .empty
  messageStates := .empty
  searchDocuments := .empty
  templates := .empty
  templateDocuments := .empty
  seenWatermarks := .empty
  teamRoster := .empty
  diagnosticEvents := []
  tasks := .empty
  taskEvents := []
  cronSchedules := .empty
  cronEvents := []
  cronIntents := []

/-- The clock readings and fresh ids of one write, by the place that reads them, and the row order of its
statements. `audit` is the clock reading of the rejection audit, which runs after the rollback. -/
structure Ambient where
  clock : Nat → IsoTimestamp
  fresh : Nat → AtmMessageId
  audit : IsoTimestamp
  rowOrder : RowOrder

/-- The readings from the `n`-th place on. -/
def Ambient.from (ambient : Ambient) (n : Nat) : Ambient :=
  { ambient with
    clock := fun i => ambient.clock (n + i)
    fresh := fun i => ambient.fresh (n + i) }

/-- The decomposed form of a template-sourced message. -/
structure DecomposedMessageRecord where
  key : MessageKey
  templateSha : String
  vars : List (String × Value)
  category : Option String
  tags : List String
  contentFormat : Option String
  workflow : Option WorkflowColumns

structure DecomposedMessageAdmission where
  template : TemplateRegistration
  message : DecomposedMessageRecord

structure TemplateMessageAdmission where
  record : Message
  decomposition : DecomposedMessageAdmission
  provenance : MessageWriteOrigin

structure World where
  envelopeJsonLen : StorageEnvelope → Nat
  validateTemplate : TemplateRegistration → Except AtmError Unit
  validateWorkflow : DecomposedMessageAdmission → Except AtmError Unit
  validateTemplate_cause : ∀ request error, validateTemplate request = .error error → error.cause = none
  validateWorkflow_cause : ∀ admission error, validateWorkflow admission = .error error → error.cause = none
  validateTemplate_code : ∀ request error, validateTemplate request = .error error →
    isTaskRejection error.code = false
  validateWorkflow_code : ∀ admission error, validateWorkflow admission = .error error →
    isTaskRejection error.code = false

end AtmCore
