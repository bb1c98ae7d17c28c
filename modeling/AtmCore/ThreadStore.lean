import AtmCore.MailRows
import AtmCore.ThreadWalks

/-! The threads of the stored messages. A message keeps its id, its parent, its sender and its acknowledgement
requirement as long as it is stored, whatever is written of its state. So the threads of a mailbox stay sound when
every message that is stored continues the one it names, and no stored message is given an expiry later. -/

namespace AtmCore

open Rows List Option MailRow Table

/-- The messages of a mailbox as they are stored, in the order they came. -/
def Db.storedIn (db : Db) (mailbox : MailboxScope) : List MessageEnvelope :=
  (db.mailMessages.rows.filter (MailRow.within mailbox)).map (fun row => (db.messageOf row).envelope)

/-- A stored message keeps its place in its thread, and does not begin to expire. -/
structure Lasts (before after : MessageEnvelope) : Prop where
  messageId : after.messageId = before.messageId
  parentMessageId : after.parentMessageId = before.parentMessageId
  sender : after.from = before.from
  requiresAck : after.requiresAck = before.requiresAck
  lasting : before.expiresAt = none → after.expiresAt = none

theorem Lasts.refl (message : MessageEnvelope) : Lasts message message := ⟨rfl, rfl, rfl, rfl, fun h => h⟩

theorem Lasts.trans (a b c : MessageEnvelope) (h : Lasts a b) (h' : Lasts b c) : Lasts a c :=
  ⟨h'.messageId.trans h.messageId, h'.parentMessageId.trans h.parentMessageId, h'.sender.trans h.sender,
    h'.requiresAck.trans h.requiresAck, fun hlast => h'.lasting (h.lasting hlast)⟩

theorem Continues.lasts {parent child parent' child' : MessageEnvelope} (h : Continues parent child)
    (hpar : Lasts parent parent') (hchild : Lasts child child') : Continues parent' child' := by
  refine ⟨?_, hpar.lasting h.lastingParent, hchild.lasting h.lasting, ?_⟩
  · rw [hpar.sender, hchild.sender, h.sender]
  · rw [hpar.requiresAck, hchild.requiresAck]
    exact h.requiresAck

/-- A message names no parent, or one it continues. -/
def Follows (messages : List MessageEnvelope) (message : MessageEnvelope) : Prop :=
  ∀ parentId, message.parentMessageId = some parentId →
    ∃ parent ∈ messages, parent.messageId = some parentId ∧ Continues parent message

def Message.readBack (record : Message) (linked : Bool) : MessageEnvelope :=
  (StorageEnvelope.new (record.kept linked).envelope).decode

def Message.mailbox (record : Message) : MailboxScope := ⟨record.team, record.agent⟩

/-- What the acts of a send have to keep: a stored message continues the one it names, and a message that is there
without an expiry is not given one. -/
def threadGuard : MailGuard
  | .store record linked, db =>
    record.envelope.messageId.isSome = true ∧ Follows (db.storedIn record.mailbox) (record.readBack linked)
  | .restate record, db => ∀ row, db.mailMessages.find? record.mailKey = some row →
    (db.messageOf row).envelope.expiresAt = none → record.envelope.expiresAt = none
  | .delete _, _ => False
  | _, _ => True

theorem threadGuard_beside : threadGuard.Beside where
  notice _ _ _ _ _ := ⟨rfl, nofun⟩
  acknowledge _ _ _ := trivial
  decompose _ _ := trivial

variable {f : MailRow → MailRow} {linked : Bool} {recordedAt : IsoTimestamp} {row : MailRow}

section Reads

variable {db db' : Db} {row : MailRow} {mailbox : MailboxScope}

theorem applyLoadedState_place {envelope : MessageEnvelope} {state : Option MessageStateRow} :
    (applyLoadedState envelope state).messageId = envelope.messageId ∧
    (applyLoadedState envelope state).parentMessageId = envelope.parentMessageId ∧
    (applyLoadedState envelope state).from = envelope.from ∧
    (applyLoadedState envelope state).requiresAck = envelope.requiresAck := by
  cases state <;> exact ⟨rfl, rfl, rfl, rfl⟩

theorem messageOf_expiresAt {state : MessageStateRow} (h : db.stateOf row = some state) :
    (db.messageOf row).envelope.expiresAt = state.expiresAt := by
  rw [Db.messageOf, h]
  rfl

theorem lasts_of_envelopeJson {row' : MailRow} (hjson : row'.envelopeJson = row.envelopeJson)
    (hlast : (db.messageOf row).envelope.expiresAt = none → (db'.messageOf row').envelope.expiresAt = none) :
    Lasts (db.messageOf row).envelope (db'.messageOf row').envelope := by
  obtain ⟨hid, hpar, hfrom, hack⟩ := applyLoadedState_place
  obtain ⟨hid', hpar', hfrom', hack'⟩ := applyLoadedState_place
  refine ⟨?_, ?_, ?_, ?_, hlast⟩
  · rw [Db.messageOf, Db.messageOf, hid, hid', hjson]
  · rw [Db.messageOf, Db.messageOf, hpar, hpar', hjson]
  · rw [Db.messageOf, Db.messageOf, hfrom, hfrom', hjson]
  · rw [Db.messageOf, Db.messageOf, hack, hack', hjson]

theorem mem_storedIn {message : MessageEnvelope} : message ∈ db.storedIn mailbox ↔
      ∃ row ∈ db.mailMessages.rows, row.within mailbox = true ∧ (db.messageOf row).envelope = message := by
  rw [Db.storedIn, List.mem_map]
  constructor
  · rintro ⟨row, hrow, rfl⟩
    obtain ⟨hmem, hwith⟩ := mem_filter.mp hrow
    exact ⟨row, hmem, hwith, rfl⟩
  · rintro ⟨row, hmem, hwith, rfl⟩
    exact ⟨row, mem_filter.mpr ⟨hmem, hwith⟩, rfl⟩

/-- Two states of a mailbox whose rows change in place, as far as threads go. -/
structure ChangesInPlace (db db' : Db) (f : MailRow → MailRow) : Prop where
  rows : db'.mailMessages.rows = db.mailMessages.rows.map f
  key : ∀ row, (f row).key = row.key
  lasts : ∀ row ∈ db.mailMessages.rows, Lasts (db.messageOf row).envelope (db'.messageOf (f row)).envelope

theorem ChangesInPlace.storedIn (h : ChangesInPlace db db' f) (mailbox : MailboxScope) :
    db'.storedIn mailbox = (db.mailMessages.rows.filter (MailRow.within mailbox)).map
      (fun row => (db'.messageOf (f row)).envelope) := by
  rw [Db.storedIn, h.rows, List.filter_map, List.map_map]
  congr 1
  refine filter_congr (fun row _ => ?_)
  exact within_congr (h.key row)

theorem ChangesInPlace.grown (h : ChangesInPlace db db' f) (mailbox : MailboxScope) :
    Grown Lasts (db.storedIn mailbox) (db'.storedIn mailbox) := by
  rw [h.storedIn, Db.storedIn]
  exact .of_map (fun row hrow => h.lasts row (mem_of_mem_filter hrow))

theorem ChangesInPlace.threads (h : ChangesInPlace db db' f) (hthreads : MailThreads (db.storedIn mailbox)) :
    MailThreads (db'.storedIn mailbox) := by
  have hlasts : ∀ row ∈ db.mailMessages.rows.filter (MailRow.within mailbox),
      Lasts (db.messageOf row).envelope (db'.messageOf (f row)).envelope :=
    fun row hrow => h.lasts row (mem_of_mem_filter hrow)
  rw [h.storedIn]
  refine hthreads.map_congr (fun row hrow => (hlasts row hrow).messageId)
    (fun row hrow => (hlasts row hrow).parentMessageId) (fun row hrow other hother hcontinues => ?_)
  exact hcontinues.lasts (hlasts row hrow) (hlasts other hother)

end Reads

section Acts

variable {world : World} {db db' : Db} {record : Message} {updatedAt : IsoTimestamp} {mailbox : MailboxScope}

theorem messageOf_keeping (hrow : prepareMessageRow world record recordedAt = .ok row)
    (hstates : db'.messageStates = upsertMessageState db.messageStates record recordedAt) :
    (db'.messageOf (row.keeping record linked)).envelope = record.readBack linked := by
  have hstate : db'.stateOf (row.keeping record linked) =
      some ((db.messageStates.find? record.mailKey).elim (record.newState recordedAt) (record.restate recordedAt)) := by
    rw [Db.stateOf, keeping_key hrow, hstates, find?_upsertMessageState, if_pos rfl]
  rw [Db.messageOf, hstate]
  cases db.messageStates.find? record.mailKey <;> cases linked <;> rfl

theorem messageOf_of_upsert (hstates : db'.messageStates = upsertMessageState db.messageStates record updatedAt)
    (hkey : record.mailKey ≠ row.key) : db'.messageOf row = db.messageOf row := by
  rw [Db.messageOf, Db.messageOf, Db.stateOf, Db.stateOf, hstates, find?_upsertMessageState, if_neg hkey]

theorem storedIn_of_store (hfr : db.mailMessages.find? record.mailKey = none)
    (hrow : prepareMessageRow world record recordedAt = .ok row)
    (hmail : db'.mailMessages.rows = db.mailMessages.rows ++ [row.keeping record linked])
    (hstates : db'.messageStates = upsertMessageState db.messageStates record recordedAt) (mailbox : MailboxScope) :
    db'.storedIn mailbox =
      if record.mailbox = mailbox then db.storedIn mailbox ++ [record.readBack linked] else db.storedIn mailbox := by
  have hold : (db.mailMessages.rows.filter (MailRow.within mailbox)).map (fun row => (db'.messageOf row).envelope) =
      db.storedIn mailbox := by
    refine map_congr_left (fun other hother => ?_)
    have hne := (Table.find?_eq_none_iff db.mailMessages).mp hfr other (mem_of_mem_filter hother)
    rw [messageOf_of_upsert hstates (Ne.symm hne)]
  have hwith : (row.keeping record linked).within mailbox = decide (record.mailbox = mailbox) := by
    have hkey : (row.keeping record linked).key = record.mailKey := keeping_key hrow
    rw [MailRow.key, Message.mailKey, Prod.mk.injEq, Prod.mk.injEq] at hkey
    rw [MailRow.within, hkey.1, hkey.2.1, Bool.eq_iff_iff, Bool.and_eq_true, decide_eq_true_iff, decide_eq_true_iff,
      decide_eq_true_iff, Message.mailbox, MailboxScope.mk.injEq]
  rw [Db.storedIn, hmail, filter_append, map_append, hold]
  by_cases hbox : record.mailbox = mailbox
  · rw [if_pos hbox, filter_cons_of_pos (by rw [hwith]; exact decide_eq_true hbox), filter_nil,
      map_singleton, messageOf_keeping hrow hstates]
  · rw [if_neg hbox, filter_cons_of_neg (by rw [hwith]; simpa using hbox), filter_nil, map_nil,
      append_nil]

/-- A write of one state changes its message in place. -/
theorem ChangesInPlace.of_upsert (hmail : db'.mailMessages = db.mailMessages)
    (hstates : db'.messageStates = upsertMessageState db.messageStates record updatedAt)
    (hlast : ∀ row, db.mailMessages.find? record.mailKey = some row →
      (db.messageOf row).envelope.expiresAt = none → record.envelope.expiresAt = none) :
    ChangesInPlace db db' (fun row => row) where
  rows := by rw [hmail, List.map_id']
  key _ := rfl
  lasts row hrow := by
    by_cases hkey : record.mailKey = row.key
    · refine lasts_of_envelopeJson rfl (fun hnone => ?_)
      have hstate : db'.stateOf row =
          some ((db.messageStates.find? row.key).elim (record.newState updatedAt) (record.restate updatedAt)) := by
        rw [Db.stateOf, hstates, find?_upsertMessageState, if_pos hkey]
      have hexp := hlast row (hkey ▸ find?_key hrow) hnone
      rw [messageOf_expiresAt hstate]
      cases db.messageStates.find? row.key <;> exact hexp
    · rw [messageOf_of_upsert hstates hkey]
      exact .refl _

/-- The mail rows and the threads of every mailbox are sound. -/
structure ThreadsSound (db : Db) : Prop where
  rows : MailSound db
  threads : ∀ mailbox, MailThreads (db.storedIn mailbox)

theorem ThreadsSound.of_empty (h : db.mailMessages.rows = []) : ThreadsSound db := by
  refine ⟨.of_empty h, fun mailbox => ?_⟩
  rw [Db.storedIn, h]
  exact .nil

theorem storedIn_of_same (h : SameMail db db') : db'.storedIn mailbox = db.storedIn mailbox := by
  rw [Db.storedIn, Db.storedIn, h.messages]
  refine map_congr_left (fun row _ => ?_)
  rw [Db.messageOf, Db.messageOf, Db.stateOf, Db.stateOf, h.states]

/-- A stored message of a mailbox is found under the columns of its row. -/
theorem not_shares {column : MailRow → Option AtmMessageId}
    {member : MessageEnvelope → Option AtmMessageId} {id : AtmMessageId}
    (hm : ∀ other ∈ db.mailMessages.rows, member (db.messageOf other).envelope = column other)
    (hrow : row.within mailbox = true) (hid : column row = some id)
    (h : db.mailMessages.rows.any (row.sharesIn column) = false) :
    ∀ message ∈ db.storedIn mailbox, member message ≠ some id := by
  rintro message hmsg hsame
  obtain ⟨other, hother, hwith, rfl⟩ := mem_storedIn.mp hmsg
  rw [hm other hother] at hsame
  obtain ⟨hteam, hag⟩ := within_eq_true.mp hrow
  obtain ⟨hteam', hag'⟩ := within_eq_true.mp hwith
  refine (List.any_eq_false.mp h other hother) (sharesIn_iff.mpr ⟨?_, ?_, id, hid, hsame⟩)
  · rw [hteam, hteam']
  · rw [hag, hag']

theorem ThreadsSound.store (h : ThreadsSound db) (hsome : record.envelope.messageId.isSome = true)
    (hfollows : Follows (db.storedIn record.mailbox) (record.readBack linked))
    (hrow : prepareMessageRow world record recordedAt = .ok row) (hconf : mailConflict db.mailMessages row = none) :
    MailThreads (db.storedIn record.mailbox ++ [record.readBack linked]) := by
  obtain ⟨hids, hparents⟩ := mailConflict_eq_none hconf
  have hid : (record.readBack linked).messageId = record.envelope.messageId := by cases linked <;> rfl
  have hpar : (record.readBack linked).parentMessageId = record.envelope.parentMessageId := by cases linked <;> rfl
  obtain ⟨-, classification, -, rfl⟩ := prepareMessageRow_eq_ok hrow
  have hplace : ∀ other ∈ db.mailMessages.rows, (db.messageOf other).envelope.messageId = other.messageId ∧
      (db.messageOf other).envelope.parentMessageId = other.parentMessageId := by
    intro other hother
    obtain ⟨hid, hpar, -, -⟩ := applyLoadedState_place
    have hagr := h.rows.agrees other hother
    exact ⟨by rw [Db.messageOf, hid, hagr.messageId]; rfl, by rw [Db.messageOf, hpar, hagr.parentMessageId]; rfl⟩
  refine .snoc (h.threads record.mailbox) ?_ (fun parentId hparId => ⟨?_, hfollows parentId hparId⟩)
  · obtain ⟨id, hsome⟩ := isSome_iff_exists.mp hsome
    refine ⟨id, hid.trans hsome, ?_⟩
    exact not_shares (fun other hother => (hplace other hother).1) (within_eq_true.mpr ⟨rfl, rfl⟩) hsome hids
  · rw [hpar] at hparId
    exact not_shares (fun other hother => (hplace other hother).2) (within_eq_true.mpr ⟨rfl, rfl⟩) hparId
      hparents

/-- Every mailbox has grown. -/
abbrev GrownFrom (seen db : Db) : Prop := ∀ mailbox, Grown Lasts (seen.storedIn mailbox) (db.storedIn mailbox)

theorem ThreadsSound.changesInPlace (h : ThreadsSound db) (hrows : MailSound db')
    (hchanges : ChangesInPlace db db' f) :
    ThreadsSound db' ∧ GrownFrom db db' :=
  ⟨⟨hrows, fun mailbox => hchanges.threads (h.threads mailbox)⟩, hchanges.grown⟩

/-- An act that the guard lets pass keeps the threads sound, and every message at its place. -/
theorem ThreadsSound.does {act : MailAct} (h : ThreadsSound db) (hguard : threadGuard act db)
    (hact : act.Does world db db') :
    ThreadsSound db' ∧ GrownFrom db db' := by
  have hrows := h.rows.does hact
  cases hact with
  | store recordedAt row hfr hrow hconf hmail hstates =>
    have hst := storedIn_of_store hfr hrow hmail hstates
    refine ⟨⟨hrows, fun mailbox => ?_⟩, fun mailbox => ?_⟩
    · rw [hst]
      split
      · next hbox =>
        rw [← hbox]
        exact h.store hguard.1 hguard.2 hrow hconf
      · exact h.threads mailbox
    · rw [hst]
      split
      · exact .append Lasts.refl _ _
      · exact .refl Lasts.refl _
  | restate updatedAt stored hst hmail hstates => exact h.changesInPlace hrows (.of_upsert hmail hstates hguard)
  | acknowledge requested updatedAt hload hpend hmail hstates =>
    refine h.changesInPlace hrows (.of_upsert hmail hstates (fun row hrow hnone => ?_))
    -- the acknowledgement writes the expiry that it has read
    obtain ⟨hkey, -⟩ := loadExistingMessage_eq_ok hload
    rw [show (markSourceAcknowledged _ _).mailKey = _ from hkey] at hrow
    rw [loadExistingMessage, hrow] at hload
    cases hload
    rw [← key_of_find? hrow]
    obtain ⟨state, hstate⟩ := h.rows.stated row (mem_of_find? hrow)
    rw [messageOf_expiresAt hstate] at hnone
    rw [Db.stateOf] at hstate
    rw [hstate]
    exact hnone
  | @decompose message hmail hstates =>
    refine h.changesInPlace hrows (f := decomposeRow message) ⟨by rw [hmail, mapRows_rows],
      decomposeRow_key message, fun row hrow => ?_⟩
    refine lasts_of_envelopeJson (decomposeRow_envelopeJson) (fun hnone => ?_)
    rw [Db.messageOf, Db.stateOf, hstates, decomposeRow_key, decomposeRow_envelopeJson]
    exact hnone
  | read updatedAt nextDue hmail hstates =>
    refine h.changesInPlace hrows (f := fun row => row) ⟨by rw [hmail, List.map_id'], fun _ => rfl, fun row hrow => ?_⟩
    refine lasts_of_envelopeJson rfl (fun hnone => ?_)
    obtain ⟨state, hstate⟩ := h.rows.stated row hrow
    rw [messageOf_expiresAt hstate] at hnone
    rw [Db.stateOf] at hstate
    rw [Db.messageOf, Db.stateOf, hstates, markMessageRead, find?_mapRows, hstate, map_some]
    split <;> exact hnone
  | reopen hmail hstates =>
    refine h.changesInPlace hrows (f := fun row => row) ⟨by rw [hmail, List.map_id'], fun _ => rfl, fun row hrow => ?_⟩
    refine lasts_of_envelopeJson rfl (fun hnone => ?_)
    obtain ⟨state, hstate⟩ := h.rows.stated row hrow
    rw [messageOf_expiresAt hstate] at hnone
    rw [Db.stateOf] at hstate
    rw [Db.messageOf, Db.stateOf, hstates, normalizeLegacyAssignmentMarkers, find?_mapRows, hstate, map_some]
    split <;> exact hnone
  | delete hmail hstates => exact hguard.elim

/-- A path that the guard lets pass keeps the threads sound, and every message at its place. -/
theorem ThreadsSound.path (h : ThreadsSound db) (hpath : MailPath world threadGuard db db') :
    ThreadsSound db' ∧ GrownFrom db db' := by
  refine hpath.keeps (P := fun db' => ThreadsSound db' ∧
    GrownFrom db db') ?_ ?_ ⟨h, fun _ => .refl Lasts.refl _⟩
  · rintro db₁ db₂ hsame ⟨hs, hgrown⟩
    refine ⟨⟨hs.rows.of_same hsame, fun mailbox => ?_⟩, fun mailbox => ?_⟩
    · rw [storedIn_of_same hsame]
      exact hs.threads mailbox
    · rw [storedIn_of_same hsame]
      exact hgrown mailbox
  · rintro act db₁ db₂ hguard hact ⟨hs, hgrown⟩
    obtain ⟨hs', hgrown'⟩ := hs.does hguard hact
    exact ⟨hs', fun mailbox => (hgrown mailbox).trans Lasts.trans (hgrown' mailbox)⟩

end Acts

end AtmCore
