import AtmCore.LedgerWrites

/-! Mail of peers beside local mail. The messages of a store fall into two kinds: those of the peers, with their
keys, their ids and the parents they name, and the others, which share none of these with them. Two stores are the same
locally when they agree on all but the mail of peers and the reading marks. Each operation on the mail tables either
keeps the local part, when it is about a key of the peers, or changes it in the same way on both sides. -/

namespace AtmCore

open Rows List Table

/-- The names a message takes in a mailbox: its key, its id and the id it follows. -/
structure Links where
  key : MessageKey
  id : Option AtmMessageId
  parent : Option AtmMessageId

def Message.links (message : Message) : Links :=
  ⟨message.messageKey, message.envelope.messageId, message.envelope.parentMessageId⟩

def MailRow.links (row : MailRow) : Links := ⟨row.messageKey, row.messageId, row.parentMessageId⟩

/-- The links of a message outside of every thread that is stored under its id. -/
def Links.ofId (id : AtmMessageId) : Links := ⟨.fromAtmMessageId id, some id, none⟩

/-- The names that belong to the messages of peers. -/
structure Foreign where
  key : MessageKey → Bool
  id : AtmMessageId → Bool
  parent : AtmMessageId → Bool

/-- All names of the message belong to the peers. -/
structure Foreign.Inside (peers : Foreign) (links : Links) : Prop where
  key : peers.key links.key = true
  id : ∀ id, links.id = some id → peers.id id = true
  parent : ∀ id, links.parent = some id → peers.parent id = true

/-- The message shares no name with those of the peers, and none of them follows it or its parent. -/
structure Foreign.Outside (peers : Foreign) (links : Links) : Prop where
  key : peers.key links.key = false
  id : ∀ id, links.id = some id → peers.id id = false
  unfollowed : ∀ id, links.id = some id → peers.parent id = false
  parent : ∀ id, links.parent = some id → peers.parent id = false

/-- Every stored message is of one kind or the other. -/
def Foreign.Parts (peers : Foreign) (mail : Table MailRow.key) : Prop :=
  ∀ row ∈ mail.rows, peers.Inside row.links ∨ peers.Outside row.links

def Foreign.localRows (peers : Foreign) (mail : Table MailRow.key) : List MailRow :=
  mail.rows.filter (fun row => !peers.key row.messageKey)

/-- What a state row records beside the reading marks. -/
structure StateMark where
  pendingAckAt : Option IsoTimestamp
  acknowledgedAt : Option IsoTimestamp
  expiresAt : Option IsoTimestamp
  deletedAt : Option IsoTimestamp
  deriving DecidableEq

def MessageStateRow.mark (row : MessageStateRow) : StateMark :=
  ⟨row.pendingAckAt, row.acknowledgedAt, row.expiresAt, row.deletedAt⟩

/-- The state rows of the local keys agree on their marks. -/
def Foreign.SameMarks (peers : Foreign) (states states' : Table MessageStateRow.key) : Prop :=
  ∀ key : MailKey, peers.key key.2.2 = false →
    (states.find? key).map MessageStateRow.mark = (states'.find? key).map MessageStateRow.mark

/-- Two stores that differ only in the mail of peers and in reading marks. -/
structure SameLocally (peers : Foreign) (db db' : Db) : Prop where
  tasks : db.tasks = db'.tasks
  taskEvents : db.taskEvents = db'.taskEvents
  roster : db.teamRoster = db'.teamRoster
  schedules : db.cronSchedules = db'.cronSchedules
  events : db.cronEvents = db'.cronEvents
  intents : db.cronIntents = db'.cronIntents
  mail : peers.localRows db.mailMessages = peers.localRows db'.mailMessages
  marks : peers.SameMarks db.messageStates db'.messageStates

section Kinds

variable {peers : Foreign} {row other : MailRow} {mail mail' : Table MailRow.key} {p : MailRow → Bool}

theorem Foreign.Parts.inside (h : peers.Parts mail) (hrow : row ∈ mail.rows)
    (hkey : peers.key row.messageKey = true) : peers.Inside row.links := by
  rcases h row hrow with hins | hout
  · exact hins
  · have := hout.key
    rw [show row.links.key = row.messageKey from rfl, hkey] at this
    cases this

theorem Foreign.Parts.outside (h : peers.Parts mail) (hrow : row ∈ mail.rows)
    (hkey : peers.key row.messageKey = false) : peers.Outside row.links := by
  rcases h row hrow with hins | hout
  · have := hins.key
    rw [show row.links.key = row.messageKey from rfl, hkey] at this
    cases this
  · exact hout

theorem Foreign.find?_localRows (peers : Foreign)
    (hp : ∀ row ∈ mail.rows, p row = true → peers.key row.messageKey = false) :
    mail.rows.find? p = (peers.localRows mail).find? p :=
  (find?_filter_of_imp (fun row hrow hpr => by simp [hp row hrow hpr])).symm

theorem Foreign.any_localRows (peers : Foreign)
    (hp : ∀ row ∈ mail.rows, p row = true → peers.key row.messageKey = false) :
    mail.rows.any p = (peers.localRows mail).any p :=
  (any_filter_of_imp (fun row hrow hpr => by simp [hp row hrow hpr])).symm

theorem Foreign.find?_local (peers : Foreign) {key : MailKey} (hkey : peers.key key.2.2 = false) :
    mail.find? key = (peers.localRows mail).find? (fun row => decide (row.key = key)) := by
  refine peers.find?_localRows (fun row _ hrow => ?_)
  rw [← of_decide_eq_true hrow] at hkey
  exact hkey

/-- A local message shares neither its id nor its parent with a message of a peer. -/
theorem Foreign.Outside.sharesIn_inside (h : peers.Outside row.links) (h' : peers.Inside other.links) :
    row.sharesIn MailRow.messageId other = false ∧ row.sharesIn MailRow.parentMessageId other = false := by
  have hapart : ∀ {link : MailRow → Option AtmMessageId} {of : AtmMessageId → Bool},
      (∀ id, link row = some id → of id = false) → (∀ id, link other = some id → of id = true) →
      row.sharesIn link other = false := by
    intro link of hrow hother
    unfold MailRow.sharesIn
    cases hid : link row with
    | none => simp
    | some id =>
      have hne : link other ≠ some id := fun heq => Bool.false_ne_true ((hrow id hid).symm.trans (hother id heq))
      simp [hne]
  exact ⟨hapart h.id h'.id, hapart h.parent h'.parent⟩

/-- The unique indexes hold a local message only against local ones. -/
theorem Foreign.mailConflict_local (hrow : peers.Outside row.links) (hmail : peers.Parts mail)
    (hmail' : peers.Parts mail') (h : peers.localRows mail = peers.localRows mail') :
    mailConflict mail row = mailConflict mail' row := by
  have hany : ∀ {column : MailRow → Option AtmMessageId},
      (∀ other, peers.Inside other.links → row.sharesIn column other = false) →
      mail.rows.any (row.sharesIn column) = mail'.rows.any (row.sharesIn column) := by
    intro column hcolumn
    have hloc : ∀ {t : Table MailRow.key}, peers.Parts t → ∀ other ∈ t.rows,
        row.sharesIn column other = true → peers.key other.messageKey = false := by
      intro t ht other hother hshares
      cases hkey : peers.key other.messageKey with
      | false => rfl
      | true =>
        rw [hcolumn other (ht.inside hother hkey)] at hshares
        cases hshares
    rw [peers.any_localRows (hloc hmail), peers.any_localRows (hloc hmail'), h]
  unfold mailConflict
  rw [hany (fun other hother => (hrow.sharesIn_inside hother).1),
    hany (fun other hother => (hrow.sharesIn_inside hother).2)]

end Kinds

section Rows

variable {peers : Foreign} {row : MailRow} {mail mail' : Table MailRow.key}

theorem Foreign.localRows_append_of_outside (hkey : peers.key row.messageKey = false)
    (h : mail'.rows = mail.rows ++ [row]) : peers.localRows mail' = peers.localRows mail ++ [row] := by
  simp [Foreign.localRows, h, hkey]

theorem Foreign.localRows_mapRows (peers : Foreign) (f : MailRow → MailRow) (hf : ∀ row, (f row).key = row.key) :
    peers.localRows (mail.mapRows f hf) = (peers.localRows mail).map f := by
  have hkey : ∀ row, (f row).messageKey = row.messageKey := fun row => congrArg (fun key => key.2.2) (hf row)
  unfold Foreign.localRows
  rw [mapRows_rows, List.filter_map]
  congr 2
  funext row
  simp [hkey]

theorem Foreign.localRows_filterRows (peers : Foreign) (p : MailRow → Bool) :
    peers.localRows (mail.filterRows p) = (peers.localRows mail).filter p := by
  unfold Foreign.localRows
  rw [filterRows_rows, List.filter_filter, List.filter_filter]
  congr 1
  funext row
  exact Bool.and_comm _ _

theorem Foreign.Parts.append (h : peers.Parts mail) (hrow : peers.Inside row.links ∨ peers.Outside row.links)
    (hrows : mail'.rows = mail.rows ++ [row]) : peers.Parts mail' := by
  intro other hother
  rw [hrows] at hother
  rcases mem_append.mp hother with hother | hother
  · exact h other hother
  · rw [mem_singleton.mp hother]
    exact hrow

theorem Foreign.Parts.mapRows (h : peers.Parts mail) {f : MailRow → MailRow} (hf : ∀ row, (f row).key = row.key)
    (hlinks : ∀ row, (f row).links = row.links) : peers.Parts (mail.mapRows f hf) := by
  intro row hrow
  obtain ⟨stored, hst, rfl⟩ := List.mem_map.mp hrow
  rw [hlinks]
  exact h stored hst

theorem Foreign.Parts.filterRows (h : peers.Parts mail) (p : MailRow → Bool) : peers.Parts (mail.filterRows p) :=
  fun row hrow => h row (mem_of_mem_filter hrow)

end Rows

section Marks

variable {peers : Foreign} {states states' states'' : Table MessageStateRow.key} {record : Message}
  {updatedAt : IsoTimestamp}

theorem Foreign.SameMarks.refl (peers : Foreign) (states : Table MessageStateRow.key) :
    peers.SameMarks states states :=
  fun _ _ => rfl

theorem Foreign.SameMarks.symm (h : peers.SameMarks states states') : peers.SameMarks states' states :=
  fun key hkey => (h key hkey).symm

theorem Foreign.SameMarks.trans (h : peers.SameMarks states states') (h' : peers.SameMarks states' states'') :
    peers.SameMarks states states'' :=
  fun key hkey => (h key hkey).trans (h' key hkey)

/-- The mark an admission leaves is that of its message, whatever was there. -/
theorem mark_upsertMessageState {key : MailKey} :
    ((upsertMessageState states record updatedAt).find? key).map MessageStateRow.mark =
      if record.mailKey = key then some (record.newState updatedAt).mark
      else (states.find? key).map MessageStateRow.mark := by
  rw [find?_upsertMessageState]
  split
  · cases states.find? key <;> rfl
  · rfl

theorem Foreign.SameMarks.upsert (h : peers.SameMarks states states') (record : Message) (updatedAt : IsoTimestamp) :
    peers.SameMarks (upsertMessageState states record updatedAt) (upsertMessageState states' record updatedAt) := by
  intro key hkey
  rw [mark_upsertMessageState, mark_upsertMessageState, h key hkey]

theorem Foreign.sameMarks_upsert_inside (hkey : peers.key record.messageKey = true) :
    peers.SameMarks states (upsertMessageState states record updatedAt) := by
  intro key hloc
  rw [mark_upsertMessageState, if_neg]
  rintro rfl
  rw [show record.mailKey.2.2 = record.messageKey from rfl, hkey] at hloc
  cases hloc

theorem Foreign.SameMarks.filterRows (h : peers.SameMarks states states') (key : MessageKey) :
    peers.SameMarks (states.filterRows (fun row => decide (row.messageKey ≠ key)))
      (states'.filterRows (fun row => decide (row.messageKey ≠ key))) := by
  -- a deletion is decided by the key alone, which is the same on both sides
  have hfilter : ∀ (t : Table MessageStateRow.key) (k : MailKey),
      ((t.filterRows (fun row => decide (row.messageKey ≠ key))).find? k).map MessageStateRow.mark =
        if k.2.2 = key then none else (t.find? k).map MessageStateRow.mark := by
    intro t k
    rw [find?_filterRows]
    cases hfind : t.find? k with
    | none => simp
    | some row =>
      have hk : row.messageKey = k.2.2 := congrArg (fun key => key.2.2) (key_of_find? hfind)
      by_cases hkey : k.2.2 = key
      · simp [Option.filter, hk, hkey]
      · simp [Option.filter, hk, hkey]
  intro k hk
  rw [hfilter, hfilter, h k hk]

end Marks

end AtmCore
