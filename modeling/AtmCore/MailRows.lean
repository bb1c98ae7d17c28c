import AtmCore.MailActs
import AtmCore.MailboxQueries

/-! What the rows of the mail tables always are. The searchable columns of a message say what its envelope says, apart
from the text of a template. Every message has a state, and in a mailbox no two messages have one id or one parent. No
act of the writer breaks this. -/

namespace AtmCore

open Rows List Option Table

structure MailRow.Agrees (row : MailRow) : Prop where
  fromAgent : row.fromAgent = row.envelopeJson.from
  messageText : row.messageText = if row.templateSha.isSome then none else some row.envelopeJson.text
  summary : row.summary = row.envelopeJson.summary
  messageAt : row.messageAt = row.envelopeJson.timestamp
  messageId : row.messageId = row.envelopeJson.messageId
  parentMessageId : row.parentMessageId = row.envelopeJson.parentMessageId

/-- Two rows of one mailbox that share a column that is set are one row. -/
def UniqueIn (column : MailRow → Option AtmMessageId) (rows : List MailRow) : Prop :=
  ∀ row ∈ rows, ∀ other ∈ rows, row.sharesIn column other = true → other = row

structure MailSound (db : Db) : Prop where
  agrees : ∀ row ∈ db.mailMessages.rows, row.Agrees
  stated : ∀ row ∈ db.mailMessages.rows, ∃ state, db.stateOf row = some state
  ids : UniqueIn MailRow.messageId db.mailMessages.rows
  successors : UniqueIn MailRow.parentMessageId db.mailMessages.rows

theorem MailSound.of_empty {db : Db} (h : db.mailMessages.rows = []) : MailSound db := by
  constructor <;> simp [h, UniqueIn]

variable {column : MailRow → Option AtmMessageId} {row : MailRow} {rows : List MailRow} {record : Message}
  {linked : Bool}

theorem MailRow.sharesIn_iff {other : MailRow} : row.sharesIn column other = true ↔
      other.team = row.team ∧ other.agent = row.agent ∧ ∃ id, column row = some id ∧ column other = some id := by
  rw [MailRow.sharesIn]
  cases column row with
  | none => simp
  | some id => simp [and_assoc]

variable {f : MailRow → MailRow}

theorem UniqueIn.map (hkey : ∀ row, (f row).key = row.key)
    (hcolumn : ∀ row, column (f row) = column row) (h : UniqueIn column rows) : UniqueIn column (rows.map f) := by
  intro _ hmem _ hmem' hshares
  obtain ⟨row, hrow, rfl⟩ := List.mem_map.mp hmem
  obtain ⟨other, hother, rfl⟩ := List.mem_map.mp hmem'
  obtain ⟨hteam, hag, id, hid, hid'⟩ := MailRow.sharesIn_iff.mp hshares
  have hkeyRow := hkey row
  have hkeyOther := hkey other
  rw [MailRow.key, MailRow.key, Prod.mk.injEq, Prod.mk.injEq] at hkeyRow hkeyOther
  rw [h row hrow other hother (MailRow.sharesIn_iff.mpr ⟨by rw [← hkeyOther.1, hteam, hkeyRow.1],
    by rw [← hkeyOther.2.1, hag, hkeyRow.2.1], id, by rw [← hcolumn, hid], by rw [← hcolumn, hid']⟩)]

theorem UniqueIn.filter (p : MailRow → Bool) (h : UniqueIn column rows) : UniqueIn column (rows.filter p) :=
  fun row hrow other hother => h row (mem_of_mem_filter hrow) other (mem_of_mem_filter hother)

theorem UniqueIn.append {added : MailRow} (h : UniqueIn column rows)
    (hadded : rows.any (added.sharesIn column) = false) : UniqueIn column (rows ++ [added]) := by
  rw [List.any_eq_false] at hadded
  intro row hrow other hother hshares
  rcases mem_append.mp hrow with hrow' | hrow' <;> rcases mem_append.mp hother with hother' | hother'
  · exact h row hrow' other hother' hshares
  · obtain rfl := mem_singleton.mp hother'
    obtain ⟨hteam, hag, id, hid, hid'⟩ := MailRow.sharesIn_iff.mp hshares
    exact absurd (MailRow.sharesIn_iff.mpr ⟨hteam.symm, hag.symm, id, hid', hid⟩) (hadded row hrow')
  · obtain rfl := mem_singleton.mp hrow'
    exact absurd hshares (hadded other hother')
  · rw [mem_singleton.mp hrow', mem_singleton.mp hother']

theorem mailConflict_eq_none {mail : Table MailRow.key} (h : mailConflict mail row = none) :
    mail.rows.any (row.sharesIn MailRow.messageId) = false ∧
      mail.rows.any (row.sharesIn MailRow.parentMessageId) = false := by
  rw [mailConflict] at h
  split at h
  · cases h
  · next hid =>
    split at h
    · cases h
    · next hpar => exact ⟨Bool.eq_false_iff.mpr hid, Bool.eq_false_iff.mpr hpar⟩

variable {recordedAt : IsoTimestamp}

section Acts

variable {world : World} {db db' : Db}

theorem MailRow.keeping_agrees
    (h : prepareMessageRow world record recordedAt = .ok row) : (row.keeping record linked).Agrees := by
  obtain ⟨-, classification, -, rfl⟩ := prepareMessageRow_eq_ok h
  cases linked <;> exact ⟨rfl, rfl, rfl, rfl, rfl, rfl⟩

theorem MailRow.keeping_key (h : prepareMessageRow world record recordedAt = .ok row) :
    (row.keeping record linked).key = record.mailKey := by
  have hkey := prepareMessageRow_key h
  exact hkey

theorem MailRow.keeping_sharesIn (hcolumn : column (row.keeping record linked) = column row) :
    (row.keeping record linked).sharesIn column = row.sharesIn column := by
  funext other
  rw [MailRow.sharesIn, MailRow.sharesIn, hcolumn]
  rfl

theorem decomposeRow_envelopeJson {message : DecomposedMessageRecord} :
    (decomposeRow message row).envelopeJson = row.envelopeJson := by
  rw [decomposeRow]
  split <;> rfl

section

variable (message : DecomposedMessageRecord)

theorem decomposeRow_messageId (row : MailRow) :
    (decomposeRow message row).messageId = row.messageId := by
  rw [decomposeRow]
  split <;> rfl

theorem decomposeRow_parentMessageId (row : MailRow) :
    (decomposeRow message row).parentMessageId = row.parentMessageId := by
  rw [decomposeRow]
  split <;> rfl

theorem decomposeRow_agrees (h : row.Agrees) :
    (decomposeRow message row).Agrees := by
  rw [decomposeRow]
  split
  · exact ⟨h.fromAgent, rfl, h.summary, h.messageAt, h.messageId, h.parentMessageId⟩
  · exact h

end

def KeepsStates (db db' : Db) : Prop :=
  ∀ key, (db.messageStates.find? key).isSome = true → (db'.messageStates.find? key).isSome = true

theorem KeepsStates.of_upsert {updatedAt : IsoTimestamp}
    (h : db'.messageStates = upsertMessageState db.messageStates record updatedAt) : KeepsStates db db' := by
  intro key hkey
  rw [h, find?_upsertMessageState]
  split
  · rfl
  · exact hkey

theorem MailSound.map (h : MailSound db)
    (hrows : db'.mailMessages.rows = db.mailMessages.rows.map f) (hkey : ∀ row, (f row).key = row.key)
    (hid : ∀ row, (f row).messageId = row.messageId) (hpar : ∀ row, (f row).parentMessageId = row.parentMessageId)
    (hagr : ∀ row : MailRow, row.Agrees → (f row).Agrees) (hstates : KeepsStates db db') : MailSound db' where
  agrees _ hmem := by
    rw [hrows] at hmem
    obtain ⟨row, hrow, rfl⟩ := List.mem_map.mp hmem
    exact hagr row (h.agrees row hrow)
  stated _ hmem := by
    rw [hrows] at hmem
    obtain ⟨row, hrow, rfl⟩ := List.mem_map.mp hmem
    rw [← isSome_iff_exists, Db.stateOf, hkey]
    exact hstates row.key (isSome_iff_exists.mpr (h.stated row hrow))
  ids := by
    rw [hrows]
    exact h.ids.map hkey hid
  successors := by
    rw [hrows]
    exact h.successors.map hkey hpar

theorem MailSound.of_mail_eq (h : MailSound db) (hmail : db'.mailMessages = db.mailMessages)
    (hstates : KeepsStates db db') : MailSound db' := by
  refine h.map (f := fun row => row) ?_ (fun _ => rfl) (fun _ => rfl) (fun _ => rfl) (fun _ hrow => hrow) hstates
  rw [hmail, List.map_id']

theorem MailSound.of_same (h : MailSound db) (hsame : SameMail db db') : MailSound db' :=
  h.of_mail_eq hsame.messages (fun key hkey => by rw [hsame.states]; exact hkey)

/-- No act of the writer breaks the soundness of the rows. -/
theorem MailSound.does {act : MailAct} (h : MailSound db) (hact : act.Does world db db') : MailSound db' := by
  cases hact with
  | @store record linked recordedAt row hfr hrow hconf hmail hstates =>
    obtain ⟨hid, hpar⟩ := mailConflict_eq_none hconf
    have hkeeps : KeepsStates db db' := .of_upsert hstates
    refine ⟨fun other hother => ?_, fun other hother => ?_, ?_, ?_⟩
    · rw [hmail] at hother
      rcases mem_append.mp hother with hold | hnew
      · exact h.agrees other hold
      · obtain rfl := mem_singleton.mp hnew
        exact MailRow.keeping_agrees hrow
    · rw [hmail] at hother
      rcases mem_append.mp hother with hold | hnew
      · exact isSome_iff_exists.mp (hkeeps other.key (isSome_iff_exists.mpr (h.stated other hold)))
      · obtain rfl := mem_singleton.mp hnew
        rw [Db.stateOf, MailRow.keeping_key hrow, hstates, find?_upsertMessageState, if_pos rfl]
        exact ⟨_, rfl⟩
    · rw [hmail]
      exact h.ids.append (by rw [MailRow.keeping_sharesIn rfl]; exact hid)
    · rw [hmail]
      exact h.successors.append (by rw [MailRow.keeping_sharesIn rfl]; exact hpar)
  | restate updatedAt stored hst hmail hstates | acknowledge requested updatedAt hload hpend hmail hstates =>
    exact h.of_mail_eq hmail (.of_upsert hstates)
  | @decompose message hmail hstates =>
    refine h.map (f := decomposeRow message) (by rw [hmail, mapRows_rows]) (decomposeRow_key message)
      (decomposeRow_messageId message) (decomposeRow_parentMessageId message) (fun _ => decomposeRow_agrees message) ?_
    intro key hkey
    rw [hstates]
    exact hkey
  | read updatedAt nextDue hmail hstates =>
    refine h.of_mail_eq hmail (fun key hkey => ?_)
    rw [hstates, markMessageRead, find?_mapRows, isSome_map]
    exact hkey
  | reopen hmail hstates =>
    refine h.of_mail_eq hmail (fun key hkey => ?_)
    rw [hstates, normalizeLegacyAssignmentMarkers, find?_mapRows, isSome_map]
    exact hkey
  | @delete key hmail hstates =>
    have hsub : ∀ row ∈ db'.mailMessages.rows, row ∈ db.mailMessages.rows ∧ row.messageKey ≠ key := by
      intro row hrow
      rw [hmail, filterRows_rows, mem_filter, decide_eq_true_iff] at hrow
      exact hrow
    refine ⟨fun row hrow => h.agrees row (hsub row hrow).1, fun row hrow => ?_, ?_, ?_⟩
    · obtain ⟨state, hstate⟩ := h.stated row (hsub row hrow).1
      have hkey : state.key = row.key := key_of_find? hstate
      have hkept : state.messageKey ≠ key := by
        rw [MessageStateRow.key, MailRow.key, Prod.mk.injEq, Prod.mk.injEq] at hkey
        rw [hkey.2.2]
        exact (hsub row hrow).2
      refine ⟨state, ?_⟩
      rw [Db.stateOf] at hstate ⊢
      rw [hstates, find?_filterRows, hstate]
      simp [hkept]
    · rw [hmail]
      exact h.ids.filter _
    · rw [hmail]
      exact h.successors.filter _

theorem MailPath.sound {guard : MailGuard} (h : MailPath world guard db db') (hs : MailSound db) : MailSound db' :=
  h.keeps (fun _ _ hsame hdb => hdb.of_same hsame) (fun _ _ _ _ hact hdb => hdb.does hact) hs

end Acts

end AtmCore
