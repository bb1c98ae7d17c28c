import AtmCore.MailboxQueries
import AtmCore.Redelivery
import Mathlib.Data.List.Find

/-! Two mailboxes that hold the same message key. The rows of a message are keyed by team, agent and message key, but
some statements name the message key alone: the deletion, both lookups of a single message, and the statements that bind
a message to its template. An operation on the message of one mailbox is isolated when it goes just as if no other
mailbox held the key, and leaves the rows of the others alone. -/

namespace AtmCore

open Rows List Option MailRow Table

/-- A key that stays when the other mailboxes give up the message key. -/
def MailboxScope.keeps (scope : MailboxScope) (key : MessageKey) (stored : MailKey) : Bool :=
  decide (stored.2.2 ≠ key) || (decide (stored.1 = scope.team) && decide (stored.2.1 = scope.agent))

def MailboxScope.mailKey (scope : MailboxScope) (key : MessageKey) : MailKey := (scope.team, scope.agent, key)

/-- The database in which no other mailbox holds the key. -/
def Db.apart (scope : MailboxScope) (key : MessageKey) (db : Db) : Db :=
  { db with
    mailMessages := db.mailMessages.filterRows (fun row => scope.keeps key row.key)
    messageStates := db.messageStates.filterRows (fun row => scope.keeps key row.key)
    searchDocuments := db.searchDocuments.filterRows (fun row => scope.keeps key row.key) }

/-- What the other mailboxes hold under the key: messages, states and search projections. -/
def Db.elsewhere (scope : MailboxScope) (key : MessageKey) (db : Db) :
    List MailRow × List MessageStateRow × List SearchDocument :=
  (db.mailMessages.rows.filter (fun row => !scope.keeps key row.key),
    db.messageStates.rows.filter (fun row => !scope.keeps key row.key),
    db.searchDocuments.rows.filter (fun row => !scope.keeps key row.key))

/-- The operation goes as if no other mailbox held the key, and changes nothing that another one holds under it. -/
structure Isolated {α : Type} (scope : MailboxScope) (key : MessageKey) (op : Db → Outcome (α × Db))
    (db : Db) : Prop where
  same : (op db).map (fun result => (result.1, result.2.apart scope key)) = op (db.apart scope key)
  untouched : ∀ answer db', op db = .ok (answer, db') → db'.elsewhere scope key = db.elsewhere scope key

inductive ReadLaneError where
  | unauthorizedScope
  deriving DecidableEq

/-- The row that a lookup by the message key alone comes upon. -/
def Db.firstOf (key : MessageKey) (db : Db) : Option MailRow :=
  db.mailMessages.rows.find? (fun row => decide (row.messageKey = key))

/-- `load_message` of the mailbox reader. -/
def readerLoadMessage (scope : MailboxScope) (key : MessageKey) (db : Db) : Except ReadLaneError (Option Message) :=
  match db.firstOf key with
  | none => .ok none
  | some row => if row.within scope then .ok (some (db.messageOf row)) else .error .unauthorizedScope

/-- What can be asked for the message of one mailbox. -/
inductive MailboxCall where
  | delete (provenance : MessageWriteOrigin)
  | load
  | readerLoad
  | update (ambient : Ambient) (envelope : MessageEnvelope) (provenance : MessageWriteOrigin)
  | updateState (ambient : Ambient) (read : Bool) (pendingAckAt acknowledgedAt expiresAt : Option IsoTimestamp)
  | markRead (ambient : Ambient) (seenWatermark : Option IsoTimestamp) (provenance : MessageWriteOrigin)
  | bindTemplate (template : TemplateRegistration) (message : DecomposedMessageRecord)

inductive MailboxAnswer where
  | deleted
  | loaded (message : Option Message)
  | read (message : Except ReadLaneError (Option Message))
  | updated (result : UpsertResult)
  | stateUpdated
  | marked
  | bound (outcome : DecomposedMessageAdmissionOutcome)

def bindingOf (template : TemplateRegistration) (message : DecomposedMessageRecord) (key : MessageKey) :
    DecomposedMessageAdmission :=
  ⟨template, { message with key := key }⟩

def stateNotFound (scope : MailboxScope) (key : MessageKey) : AtmError :=
  .mailboxRead
    s!"message {key.val} was not found for {scope.agent.val}@{scope.team.val} while updating mailbox state"

/-- `persist_message_state` of a state that is not deleted: the message is loaded, given the state and saved. -/
def persistMessageState (world : World) (ambient : Ambient) (scope : MailboxScope) (key : MessageKey) (read : Bool)
    (pendingAckAt acknowledgedAt expiresAt : Option IsoTimestamp) (db : Db) : Outcome Db :=
  match loadMessageRecord scope key db with
  | none => Outcome.fail (stateNotFound scope key)
  | some message => do
    let (_, db) ← upsertMessage world ambient
      { message with envelope := withState message.envelope read pendingAckAt acknowledgedAt expiresAt } .local db
    return db

def MailboxCall.run (world : World) (scope : MailboxScope) (key : MessageKey) (call : MailboxCall) (db : Db) :
    Outcome (MailboxAnswer × Db) :=
  match call with
  | .delete provenance => do
    let db ← executeDeleteMessage key provenance db
    return (.deleted, db)
  | .load => .ok (.loaded (loadMessage key db), db)
  | .readerLoad => .ok (.read (readerLoadMessage scope key db), db)
  | .update ambient envelope provenance => do
    let (result, db) ← upsertMessage world ambient ⟨scope.team, scope.agent, key, envelope⟩ provenance db
    return (.updated result, db)
  | .updateState ambient read pendingAckAt acknowledgedAt expiresAt => do
    let db ← persistMessageState world ambient scope key read pendingAckAt acknowledgedAt expiresAt db
    return (.stateUpdated, db)
  | .markRead ambient seenWatermark provenance => do
    let db ← executeReadDisplayState ambient scope [key] seenWatermark provenance db
    return (.marked, db)
  | .bindTemplate template message => do
    let (outcome, db) ← executeDecomposedMessageAdmission world (bindingOf template message key) db
    return (.bound outcome, db)

/-- The lookup by the message key alone comes upon the message of the mailbox. -/
def FirstIn (scope : MailboxScope) (key : MessageKey) (db : Db) : Prop :=
  ∃ row, db.firstOf key = some row ∧ row.within scope = true

/-- A binding that no other mailbox disturbs: it comes upon the message of its own mailbox, which is the only one of
the key without a template if it has none itself; or the message it comes upon and its own are both bound, to the
template that is asked for or both to others. -/
def BindsApart (scope : MailboxScope) (key : MessageKey) (sha : String) (db : Db) : Prop :=
  ∃ first own, db.firstOf key = some first ∧ db.mailMessages.find? (scope.mailKey key) = some own ∧
    ((first = own ∧ (own.templateSha = none → (db.mailMessages.rows.filter (undecomposed key)).length = 1)) ∨
      ∃ bound ownBound, first.templateSha = some bound ∧ own.templateSha = some ownBound ∧
        (bound = sha ↔ ownBound = sha))

/-- When a call is isolated. -/
def MailboxCall.Separate (world : World) (scope : MailboxScope) (key : MessageKey) (call : MailboxCall)
    (db : Db) : Prop :=
  match call with
  | .delete provenance =>
    validateCronGenerationFence provenance db.cronSchedules ≠ .ok () ∨ db.elsewhere scope key = ([], [], [])
  | .load => FirstIn scope key db
  | .readerLoad => FirstIn scope key db
  | .update _ _ _ => True
  | .updateState _ _ _ _ _ => FirstIn scope key db
  | .markRead _ _ _ => True
  | .bindTemplate template message =>
    (bindingOf template message key).validate world ≠ .ok () ∨ BindsApart scope key message.templateSha db

variable {row : MailRow} {α : Type}

section Reads

variable {world : World} {scope : MailboxScope} {key : MessageKey} {db : Db} {own : MailRow}

theorem MailboxScope.keeps_own (scope : MailboxScope) : scope.keeps key (scope.mailKey key) = true := by
  simp [MailboxScope.keeps, MailboxScope.mailKey]

theorem MailRow.keeps_of_key (h : row.messageKey = key) : scope.keeps key row.key = row.within scope := by
  simp [MailboxScope.keeps, MailRow.key, MailRow.within, h]

theorem find?_apart_mail : (db.apart scope key).mailMessages.find? (scope.mailKey key) =
    db.mailMessages.find? (scope.mailKey key) :=
  find?_filterRows_of_key _ (fun row hrow => by rw [hrow]; exact scope.keeps_own)

theorem find?_apart_states : (db.apart scope key).messageStates.find? (scope.mailKey key) =
    db.messageStates.find? (scope.mailKey key) :=
  find?_filterRows_of_key _ (fun row hrow => by rw [hrow]; exact scope.keeps_own)

/-- An operation that only reads is isolated when its answer is. -/
theorem isolated_read (answer : Db → α) :
    Isolated scope key (fun db => .ok (answer db, db)) db ↔ answer db = answer (db.apart scope key) := by
  constructor
  · intro h
    exact congrArg Prod.fst (Except.ok.inj h.same)
  · intro h
    refine ⟨congrArg (fun result => Except.ok (result, db.apart scope key)) h, fun result db' hrun => ?_⟩
    cases hrun
    rfl

section

variable (hown : db.mailMessages.find? (scope.mailKey key) = some own)
include hown

/-- The mailbox's own row is the one that a lookup by the message key alone comes upon when no other mailbox holds
it. -/
theorem firstOf_apart : (db.apart scope key).firstOf key = some own := by
  have hrows : (db.apart scope key).mailMessages.rows.find? (fun row => decide (row.messageKey = key)) =
      (db.apart scope key).mailMessages.rows.find? (fun row => decide (row.key = scope.mailKey key)) := by
    refine find?_congr (fun row hrow => ?_)
    have hkept : scope.keeps key row.key = true := (mem_filter.mp hrow).2
    rw [decide_eq_decide]
    constructor
    · intro hkey
      rw [keeps_of_key hkey, within_eq_true] at hkept
      rw [MailRow.key, MailboxScope.mailKey, hkept.1, hkept.2, hkey]
    · exact fun hkey => congrArg (fun key : MailKey => key.2.2) hkey
  rw [Db.firstOf, hrows]
  exact (Table.find?.eq_def _ _).symm.trans (find?_apart_mail.trans hown)

theorem stateOf_apart : (db.apart scope key).messageOf own = db.messageOf own := by
  rw [Db.messageOf, Db.messageOf, Db.stateOf, Db.stateOf, key_of_find? hown, find?_apart_states]

/-- The first row of the key, where the mailbox holds it. -/
theorem exists_firstOf :
    ∃ first, db.firstOf key = some first ∧ first.messageKey = key ∧ (first.within scope = true → first = own) := by
  have hsome : (db.firstOf key).isSome = true := by
    rw [Db.firstOf, find?_isSome]
    exact ⟨own, mem_of_find? hown,
      decide_eq_true (congrArg (fun key : MailKey => key.2.2) (key_of_find? hown))⟩
  obtain ⟨first, hfirst⟩ := isSome_iff_exists.mp hsome
  have hkey : first.messageKey = key := by simpa using find?_some hfirst
  refine ⟨first, hfirst, hkey, fun hwith => ?_⟩
  obtain ⟨hteam, hag⟩ := within_eq_true.mp hwith
  refine db.mailMessages.eq_of_key_eq (mem_of_find?_eq_some hfirst) (mem_of_find? hown) ?_
  rw [key_of_find? hown, MailRow.key, MailboxScope.mailKey, hteam, hag, hkey]

theorem within_own : own.within scope = true := by
  have hkey := key_of_find? hown
  rw [MailRow.key, MailboxScope.mailKey, Prod.mk.injEq, Prod.mk.injEq] at hkey
  exact within_eq_true.mpr ⟨hkey.1, hkey.2.1⟩

theorem firstIn_iff : FirstIn scope key db ↔ db.firstOf key = some own := by
  obtain ⟨first, hfirst, -, hsame⟩ := exists_firstOf hown
  constructor
  · rintro ⟨row, hrow, hwith⟩
    obtain rfl := some.inj (hfirst.symm.trans hrow)
    rw [hfirst, hsame hwith]
  · exact fun heq => ⟨own, heq, within_own hown⟩

theorem load_isolated_iff :
    Isolated scope key (MailboxCall.run world scope key .load) db ↔ FirstIn scope key db := by
  have hap : loadMessage key (db.apart scope key) = some (db.messageOf own) := by
    rw [loadMessage, ← Db.firstOf, firstOf_apart hown, map_some, stateOf_apart hown]
  obtain ⟨first, hfirst, hkey, hsame⟩ := exists_firstOf hown
  have hload : loadMessage key db = some (db.messageOf first) := by
    rw [loadMessage, ← Db.firstOf, hfirst, map_some]
  refine (isolated_read (fun db => MailboxAnswer.loaded (loadMessage key db))).trans ?_
  rw [MailboxAnswer.loaded.injEq, hap, hload, some.injEq, firstIn_iff hown, hfirst, some.injEq]
  constructor
  · intro heq
    refine hsame (within_eq_true.mpr ?_)
    obtain ⟨hteam, hag⟩ := within_eq_true.mp (within_own hown)
    exact ⟨(congrArg Message.team heq).trans hteam, (congrArg Message.agent heq).trans hag⟩
  · exact fun heq => heq ▸ rfl

theorem readerLoad_isolated_iff :
    Isolated scope key (MailboxCall.run world scope key .readerLoad) db ↔ FirstIn scope key db := by
  have hap : readerLoadMessage scope key (db.apart scope key) = .ok (some (db.messageOf own)) := by
    rw [readerLoadMessage, firstOf_apart hown]
    dsimp only
    rw [if_pos (within_own hown), stateOf_apart hown]
  obtain ⟨first, hfirst, hkey, hsame⟩ := exists_firstOf hown
  refine (isolated_read (fun db => MailboxAnswer.read (readerLoadMessage scope key db))).trans ?_
  rw [MailboxAnswer.read.injEq, hap, readerLoadMessage, hfirst, FirstIn]
  dsimp only
  constructor
  · intro heq
    refine ⟨first, hfirst, ?_⟩
    by_contra hwith
    rw [if_neg hwith] at heq
    cases heq
  · rintro ⟨row, hrow, hwith⟩
    obtain rfl := some.inj (hfirst.symm.trans hrow)
    rw [if_pos hwith, hsame hwith]

end

end Reads

variable {db' : Db} {provenance : MessageWriteOrigin} {record : Message} {updatedAt : IsoTimestamp}
  {ambient : Ambient} {read : Bool} {pendingAckAt acknowledgedAt expiresAt : Option IsoTimestamp}

section Writes

variable {world : World} {scope : MailboxScope} {key : MessageKey} {db : Db} {own : MailRow}
  {op : Db → Outcome (α × Db)}

theorem isolated_of_error (fault : Fault) (h : op db = .error fault)
    (hap : op (db.apart scope key) = .error fault) : Isolated scope key op db := by
  refine ⟨by rw [h, hap]; rfl, fun answer db' hrun => ?_⟩
  rw [h] at hrun
  cases hrun

/-- An operation that succeeds is isolated when it does the same without the other mailboxes and leaves their rows. -/
theorem isolated_of_ok {answer : α} (h : op db = .ok (answer, db'))
    (hap : op (db.apart scope key) = .ok (answer, db'.apart scope key))
    (hkept : db'.elsewhere scope key = db.elsewhere scope key) : Isolated scope key op db := by
  refine ⟨by rw [h, hap]; rfl, fun answer' written hrun => ?_⟩
  obtain ⟨-, rfl⟩ := Prod.mk.inj (Except.ok.inj (h.symm.trans hrun))
  exact hkept

/-- The database after the deletion of a key. -/
def Db.deleted (key : MessageKey) (db : Db) : Db :=
  { db with
    searchDocuments := db.searchDocuments.filterRows (fun row => decide (row.messageKey ≠ key))
    messageStates := db.messageStates.filterRows (fun row => decide (row.messageKey ≠ key))
    mailMessages := db.mailMessages.filterRows (fun row => decide (row.messageKey ≠ key)) }

theorem elsewhere_deleted : (db.deleted key).elsewhere scope key = ([], [], []) := by
  have hnone : ∀ {ρ : Type} (stored : ρ → MailKey) (rows : List ρ),
      (rows.filter (fun row => decide ((stored row).2.2 ≠ key))).filter (fun row => !scope.keeps key (stored row)) =
        [] := by
    intro ρ stored rows
    rw [filter_eq_nil_iff]
    intro row hrow
    have hne := of_decide_eq_true (mem_filter.mp hrow).2
    simp [MailboxScope.keeps, hne]
  simp only [Db.elsewhere, Prod.mk.injEq]
  exact ⟨hnone MailRow.key _, hnone MessageStateRow.key _, hnone SearchDocument.key _⟩

theorem apart_deleted : (db.deleted key).apart scope key = (db.apart scope key).deleted key := by
  have hcomm : ∀ {ρ : Type} {stored : ρ → MailKey} (t : Table stored) (p : ρ → Bool),
      (t.filterRows p).filterRows (fun row => scope.keeps key (stored row)) =
        (t.filterRows (fun row => scope.keeps key (stored row))).filterRows p := by
    intro ρ stored t p
    ext1
    rw [filterRows_rows, filterRows_rows, List.filter_filter, filterRows_rows,
      filterRows_rows, List.filter_filter]
    exact filter_congr (fun row _ => Bool.and_comm _ _)
  simp only [Db.apart, Db.deleted, hcomm]

theorem delete_isolated_iff : Isolated scope key (MailboxCall.run world scope key (.delete provenance)) db ↔
      validateCronGenerationFence provenance db.cronSchedules ≠ .ok () ∨ db.elsewhere scope key = ([], [], []) := by
  have hrun : ∀ db : Db, MailboxCall.run world scope key (.delete provenance) db =
      validateCronGenerationFence provenance db.cronSchedules >>= fun _ => .ok (.deleted, db.deleted key) := by
    intro db
    rw [MailboxCall.run, executeDeleteMessage]
    cases validateCronGenerationFence provenance db.cronSchedules <;> rfl
  have hdb := hrun db
  have hap := hrun (db.apart scope key)
  rw [show (db.apart scope key).cronSchedules = db.cronSchedules from rfl] at hap
  cases hfence : validateCronGenerationFence provenance db.cronSchedules with
  | error fault =>
    rw [hfence] at hdb hap
    exact iff_of_true (isolated_of_error fault hdb hap) (.inl nofun)
  | ok _ =>
    rw [hfence] at hdb hap
    constructor
    · exact fun h => .inr ((h.untouched _ _ hdb).symm.trans elsewhere_deleted)
    · rintro (hne | hempty)
      · exact absurd rfl hne
      · rw [← apart_deleted] at hap
        exact isolated_of_ok hdb hap (elsewhere_deleted.trans hempty.symm)

theorem elsewhere_of_states {states : Table MessageStateRow.key}
    (hstates : states.rows.filter (fun row => !scope.keeps key row.key) =
      db.messageStates.rows.filter (fun row => !scope.keeps key row.key)) :
    ({ db with messageStates := states } : Db).elsewhere scope key = db.elsewhere scope key := by
  simp only [Db.elsewhere, hstates]

theorem upsertMessageState_elsewhere (hkey : record.mailKey = scope.mailKey key) :
    (upsertMessageState db.messageStates record updatedAt).rows.filter (fun row => !scope.keeps key row.key) =
      db.messageStates.rows.filter (fun row => !scope.keeps key row.key) := by
  refine filter_upsert _ _ (fun row row' h => by rw [h]) ?_
  change (!scope.keeps key record.mailKey) = false
  rw [hkey, scope.keeps_own]
  rfl

/-- The retained message of a key is found by the whole key. -/
theorem loadExistingMessage_congr {db : Db}
    (hmail : db'.mailMessages.find? record.mailKey = db.mailMessages.find? record.mailKey)
    (hstates : db'.messageStates.find? record.mailKey = db.messageStates.find? record.mailKey) :
    loadExistingMessage record db' = loadExistingMessage record db := by
  rw [loadExistingMessage, loadExistingMessage, hmail, hstates]

/-- The database after an update of the mailbox's message. -/
def Db.restated (record : Message) (updatedAt : IsoTimestamp) (db : Db) : Db :=
  { db with messageStates := upsertMessageState db.messageStates record updatedAt }

section

variable (hkey : record.mailKey = scope.mailKey key)
include hkey

theorem apart_restated :
    (db.restated record updatedAt).apart scope key = (db.apart scope key).restated record updatedAt := by
  have hstates : (upsertMessageState db.messageStates record updatedAt).filterRows
    (fun row => scope.keeps key row.key) =
      upsertMessageState (db.apart scope key).messageStates record updatedAt := by
    refine filterRows_upsert _ _ (fun row row' h => by rw [h]) ?_
    change scope.keeps key record.mailKey = true
    rw [hkey]
    exact scope.keeps_own
  simp only [Db.restated, Db.apart] at hstates ⊢
  rw [hstates]

theorem loadExistingMessage_restated_apart :
    loadExistingMessage record ((db.apart scope key).restated record updatedAt) =
      loadExistingMessage record (db.restated record updatedAt) := by
  refine loadExistingMessage_congr ?_ ?_
  · rw [hkey]
    exact find?_apart_mail
  · simp only [Db.restated, find?_upsertMessageState, hkey, find?_apart_states]

theorem upsertMessage_isolated (hown : db.mailMessages.find? (scope.mailKey key) = some own) :
    Isolated scope key (upsertMessage world ambient record provenance) db := by
  obtain ⟨existing, hex, hdb⟩ := upsertMessage_of_present world ambient provenance (hkey ▸ hown)
  obtain ⟨existing', hex', hap⟩ := upsertMessage_of_present world ambient provenance
    (show (db.apart scope key).mailMessages.find? record.mailKey = some own from hkey ▸ find?_apart_mail.trans hown)
  have hsame : loadExistingMessage record ((db.apart scope key).restated record (ambient.clock 0)) = .ok existing' :=
    hex'
  rw [loadExistingMessage_restated_apart hkey] at hsame
  obtain rfl := Except.ok.inj (hsame.symm.trans hex)
  have hchecks : admissionChecks world record provenance (db.apart scope key) =
      admissionChecks world record provenance db := rfl
  rw [hchecks] at hap
  cases hcheck : admissionChecks world record provenance db with
  | error fault =>
    rw [hcheck] at hdb hap
    exact isolated_of_error fault hdb hap
  | ok _ =>
    rw [hcheck] at hdb hap
    refine isolated_of_ok hdb ?_ (elsewhere_of_states (upsertMessageState_elsewhere hkey))
    change _ = Except.ok (_, (db.restated record (ambient.clock 0)).apart scope key)
    rw [apart_restated hkey]
    exact hap

end

/-- An operation that goes on as an isolated one is isolated, however it wraps the answer. -/
theorem Isolated.map {β : Type} {op' : Db → Outcome (β × Db)} (wrap : β → α)
    (hdb : op db = (op' db').map (fun result => (wrap result.1, result.2)))
    (hap : op (db.apart scope key) = (op' (db'.apart scope key)).map (fun result => (wrap result.1, result.2)))
    (helse : db'.elsewhere scope key = db.elsewhere scope key) (h : Isolated scope key op' db') :
    Isolated scope key op db := by
  constructor
  · rw [hdb, hap, ← h.same]
    cases op' db' with
    | error | ok => rfl
  · intro answer written hrun
    rw [hdb] at hrun
    cases hrun' : op' db' with
    | error fault =>
      rw [hrun'] at hrun
      cases hrun
    | ok result =>
      rw [hrun'] at hrun
      cases hrun
      rw [← helse]
      exact h.untouched result.1 result.2 hrun'

theorem update_isolated (hown : db.mailMessages.find? (scope.mailKey key) = some own) {envelope : MessageEnvelope} :
    Isolated scope key (MailboxCall.run world scope key (.update ambient envelope provenance)) db := by
  have hwrapped : ∀ db : Db, MailboxCall.run world scope key (.update ambient envelope provenance) db =
      (upsertMessage world ambient ⟨scope.team, scope.agent, key, envelope⟩ provenance db).map
        (fun result => (.updated result.1, result.2)) := by
    intro db
    simp only [MailboxCall.run]
    cases upsertMessage world ambient ⟨scope.team, scope.agent, key, envelope⟩ provenance db with
    | error | ok => rfl
  exact Isolated.map _ (hwrapped db) (hwrapped _) rfl (upsertMessage_isolated rfl hown)

theorem loadMessageRecord_of_first (hfirst : db.firstOf key = some row) :
    loadMessageRecord scope key db = if row.within scope then some (db.messageOf row) else none := by
  rw [loadMessageRecord, loadMessage, ← Db.firstOf, hfirst, map_some, filter_some]
  rfl

theorem persistMessageState_of_record {message : Message} (h : loadMessageRecord scope key db = some message) :
    MailboxCall.run world scope key (.updateState ambient read pendingAckAt acknowledgedAt expiresAt) db =
      (upsertMessage world ambient
        { message with
          envelope := withState message.envelope read pendingAckAt acknowledgedAt expiresAt } .local db).map
        (fun result => (.stateUpdated, result.2)) := by
  simp only [MailboxCall.run, persistMessageState, h]
  cases upsertMessage world ambient
      { message with envelope := withState message.envelope read pendingAckAt acknowledgedAt expiresAt } .local db with
  | error | ok => rfl

/-- The checks of an admission do not fail as the lookup of a state does. -/
theorem admissionChecks_code {fault : Fault} (h : admissionChecks world record .local db = .error fault) :
    ∃ error, fault = .err error ∧ error.code ≠ .mailboxReadFailed := by
  have hfence : validateCronGenerationFence .local db.cronSchedules = .ok () := rfl
  rw [admissionChecks, hfence, Fallible.bind_ok] at h
  cases hval : validateMessageRecord world record with
  | error error =>
    rw [hval] at h
    obtain ⟨detail, rfl⟩ := validateMessageRecord_error hval
    exact ⟨_, (Except.error.inj h).symm, nofun⟩
  | ok _ =>
    rw [hval] at h
    cases hclass : messageClassification record.envelope.extra with
    | error error =>
      rw [hclass] at h
      obtain ⟨detail, rfl⟩ := messageClassification_error hclass
      exact ⟨_, (Except.error.inj h).symm, nofun⟩
    | ok classification =>
      rw [hclass] at h
      cases h

theorem updateState_isolated_iff (hown : db.mailMessages.find? (scope.mailKey key) = some own) :
    Isolated scope key (MailboxCall.run world scope key
      (.updateState ambient read pendingAckAt acknowledgedAt expiresAt)) db ↔ FirstIn scope key db := by
  obtain ⟨first, hfirst, -, hsame⟩ := exists_firstOf hown
  have hrec : loadMessageRecord scope key (db.apart scope key) = some (db.messageOf own) := by
    rw [loadMessageRecord_of_first (firstOf_apart hown), if_pos (within_own hown), stateOf_apart hown]
  have hkey : (db.messageOf own).mailKey = scope.mailKey key :=
    (show (db.messageOf own).mailKey = own.key from rfl).trans (key_of_find? hown)
  by_cases hwith : first.within scope = true
  · obtain rfl := hsame hwith
    have hload : loadMessageRecord scope key db = some (db.messageOf first) := by
      rw [loadMessageRecord_of_first hfirst, if_pos hwith]
    refine iff_of_true ?_ ⟨first, hfirst, hwith⟩
    refine Isolated.map (fun _ => .stateUpdated) (persistMessageState_of_record hload)
      (persistMessageState_of_record hrec) rfl ?_
    refine upsertMessage_isolated ?_ hown
    exact hkey
  · have hmissing : loadMessageRecord scope key db = none := by
      rw [loadMessageRecord_of_first hfirst, if_neg hwith]
    refine iff_of_false (fun h => ?_) (fun ⟨row, hrow, hin⟩ => ?_)
    · -- without the other mailboxes the message is found, and its save fails otherwise if at all
      have heq := h.same
      rw [persistMessageState_of_record hrec] at heq
      simp only [MailboxCall.run, persistMessageState, hmissing] at heq
      obtain ⟨existing, -, hup⟩ := upsertMessage_of_present world ambient .local
        (show (db.apart scope key).mailMessages.find? (Message.mailKey { db.messageOf own with
          envelope := withState (db.messageOf own).envelope read pendingAckAt acknowledgedAt expiresAt }) =
            some own from
          hkey ▸ find?_apart_mail.trans hown)
      rw [hup] at heq
      cases hcheck : admissionChecks world { db.messageOf own with
          envelope := withState (db.messageOf own).envelope read pendingAckAt acknowledgedAt expiresAt } .local
          (db.apart scope key) with
      | ok _ =>
        rw [hcheck] at heq
        cases heq
      | error fault =>
        rw [hcheck] at heq
        obtain ⟨error, rfl, hcode⟩ := admissionChecks_code hcheck
        have hfault : Fault.err (stateNotFound scope key) = .err error := Except.error.inj heq
        exact hcode (congrArg AtmError.code (Fault.err.inj hfault)).symm
    · obtain rfl := some.inj (hfirst.symm.trans hrow)
      exact hwith hin

def WatermarkRow.at (watermark : IsoTimestamp) (row : WatermarkRow) : WatermarkRow :=
  { row with watermark := watermark }

/-- The database after the mailbox's message was displayed. -/
def Db.displayed (scope : MailboxScope) (key : MessageKey) (now : IsoTimestamp) (seenWatermark : Option IsoTimestamp)
    (db : Db) : Db :=
  { db with
    messageStates := markMessageRead db.messageStates (scope.mailKey key) now (now.addMillis taskReminderIntervalMs)
    seenWatermarks := match seenWatermark with
      | some watermark => db.seenWatermarks.upsert ⟨scope, watermark⟩ (.at watermark) (fun _ => rfl)
      | none => db.seenWatermarks }

theorem markRead_run (world : World) (scope : MailboxScope) (key : MessageKey) (ambient : Ambient)
    (seenWatermark : Option IsoTimestamp) (provenance : MessageWriteOrigin) (db : Db) :
    MailboxCall.run world scope key (.markRead ambient seenWatermark provenance) db =
      validateCronGenerationFence provenance db.cronSchedules >>= fun _ =>
        if (db.messageStates.find? (scope.mailKey key)).any (fun row => decide (row.deletedAt = none)) then
          .ok (.marked, db.displayed scope key (ambient.clock 0) seenWatermark)
        else Outcome.fail (.mailboxRead
          s!"message {key.val} was not found for {scope.agent.val}@{scope.team.val} while applying read display state") := by
  simp only [MailboxCall.run, executeReadDisplayState, markMessagesRead]
  cases validateCronGenerationFence provenance db.cronSchedules with
  | error fault => rfl
  | ok _ =>
    by_cases hst : (db.messageStates.find? (scope.team, scope.agent, key)).any
        (fun row => decide (row.deletedAt = none)) = true
    · simp only [Fallible.bind_ok, MailboxScope.mailKey, if_pos hst]
      cases seenWatermark <;> exact (if_pos hst).symm
    · simp only [Fallible.bind_ok, MailboxScope.mailKey, if_neg hst]
      exact (if_neg hst).symm

theorem apart_displayed {now : IsoTimestamp} {seenWatermark : Option IsoTimestamp} :
    (db.displayed scope key now seenWatermark).apart scope key =
      (db.apart scope key).displayed scope key now seenWatermark := by
  have hstates : ∀ due, (markMessageRead db.messageStates (scope.mailKey key) now due).filterRows
      (fun row => scope.keeps key row.key) =
        markMessageRead (db.apart scope key).messageStates (scope.mailKey key) now due :=
    fun _ => filterRows_mapRows _ _ (fun row => by split <;> rfl)
  simp only [Db.displayed, Db.apart] at hstates ⊢
  rw [hstates]

theorem markRead_isolated (ambient : Ambient) (seenWatermark : Option IsoTimestamp) (provenance : MessageWriteOrigin) :
    Isolated scope key (MailboxCall.run world scope key (.markRead ambient seenWatermark provenance)) db := by
  have hdb := markRead_run world scope key ambient seenWatermark provenance db
  have hap := markRead_run world scope key ambient seenWatermark provenance (db.apart scope key)
  have hfence : validateCronGenerationFence provenance (db.apart scope key).cronSchedules =
      validateCronGenerationFence provenance db.cronSchedules := rfl
  rw [hfence, find?_apart_states] at hap
  cases hcheck : validateCronGenerationFence provenance db.cronSchedules with
  | error fault =>
    rw [hcheck] at hdb hap
    exact isolated_of_error fault hdb hap
  | ok _ =>
    rw [hcheck] at hdb hap
    split at hdb
    · next hst =>
      rw [if_pos hst] at hap
      rw [← apart_displayed] at hap
      refine isolated_of_ok hdb hap (elsewhere_of_states (filter_mapRows _ _ (fun row => by split <;> rfl)
        (fun row _ hrow => if_neg ?_)))
      rintro ⟨hkey, -⟩
      rw [hkey, scope.keeps_own] at hrow
      cases hrow
    · next hst =>
      rw [if_neg hst] at hap
      exact isolated_of_error _ hdb hap

end Writes

end AtmCore
