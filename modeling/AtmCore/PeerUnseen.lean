import AtmCore.Acknowledgement
import AtmCore.MailActs
import AtmCore.PeerLockstep

/-! What peers leave is unseen. A message of a peer is stored and never reaches a task, and nothing local changes by
it. The same holds of a local operation on a message of a peer: a read mark, the columns of a template, the
acknowledgement of it, since the reply is mail outside of every task. -/

namespace AtmCore

open Rows Fallible Lockstep List Fault

/-- Two stores that are the same locally, whose tasks were assigned by local messages. -/
structure Beside (peers : Foreign) (db db' : Db) : Prop extends Alike peers db db' where
  linked : LinkedTo (fun id => peers.id id = false) db.tasks

/-- Nothing local changed. -/
structure Unseen (peers : Foreign) (db db' : Db) : Prop where
  same : SameLocally peers db db'
  parts : peers.Parts db'.mailMessages

section Relations

variable {peers : Foreign} {db db' db₁ db₁' : Db}

theorem Unseen.refl (h : peers.Parts db.mailMessages) : Unseen peers db db := ⟨.refl peers db, h⟩

theorem Unseen.trans (h : Unseen peers db db') (h' : Unseen peers db' db₁) : Unseen peers db db₁ :=
  ⟨h.same.trans h'.same, h'.parts⟩

theorem Beside.unseen_left (h : Beside peers db db') (hleft : Unseen peers db db₁) : Beside peers db₁ db' := by
  refine ⟨⟨hleft.same.symm.trans h.toSameLocally, hleft.parts, h.parts'⟩, ?_⟩
  rw [← hleft.same.tasks]
  exact h.linked

theorem Beside.unseen_right (h : Beside peers db db') (hr : Unseen peers db' db₁') : Beside peers db db₁' :=
  ⟨⟨h.toSameLocally.trans hr.same, h.parts, hr.parts⟩, h.linked⟩

end Relations

variable {world : World} {provenance : MessageWriteOrigin} {ambient : Ambient}

section Quiet

variable {peers : Foreign} {db : Db} {record : Message}

theorem insertMessageCanonical_unaudited {recordedAt : IsoTimestamp} :
    Ensures Fault.unaudited (fun _ => True) (insertMessageCanonical world record recordedAt db) := by
  refine ((ensures_lift_plain (fun error => prepareMessageRow_plain)).weaken unaudited_of_plain).bind
    (fun row _ => ?_)
  refine Ensures.bind (P := fun _ => True) ?_ (fun mail _ => by cases mail <;> trivial)
  unfold insertMessageRow
  split
  · trivial
  · split
    · exact rfl
    · trivial

/-- An admission that has no task, or comes from a peer, ends with the insertion of its message. -/
theorem upsertMessage_quiet (world : World) (ambient : Ambient) {Q : Db → Prop}
    (hquiet : record.envelope.taskId = none ∨ provenance.isLocal = false)
    (hins : Returns (fun result => Q result.2) (insertMessageCanonical world record (ambient.clock 0) db)) :
    Ensures Fault.unaudited (fun result => Q result.2) (upsertMessage world ambient record provenance db) := by
  refine ((validateCronGenerationFence_plain provenance db.cronSchedules).weaken unaudited_of_plain).bind
    (fun _ _ => ?_)
  refine ((insertMessageCanonical_unaudited).of_returns hins).bind ?_
  rintro ⟨inserted, written⟩ hwr
  cases inserted with
  | false =>
    exact ((loadExistingMessage_plain record written).weaken unaudited_of_plain).bind (fun _ _ => hwr)
  | true =>
    dsimp only
    split
    · next hloc =>
      rcases hquiet with htask | hpeer
      · unfold applyTaskMessage
        rw [htask]
        exact hwr
      · rw [hpeer] at hloc
        cases hloc
    · exact hwr

/-- A quiet message of a peer, or about one, is unseen. -/
theorem upsertMessage_unseen (hquiet : record.envelope.taskId = none ∨ provenance.isLocal = false)
    (hrec : peers.Inside record.links) (hparts : peers.Parts db.mailMessages) :
    Ensures Fault.unaudited (fun result => Unseen peers db result.2)
      (upsertMessage world ambient record provenance db) :=
  upsertMessage_quiet world ambient hquiet ((insertMessageCanonical_inside hrec hparts).mono (fun _ h => ⟨h.1, h.2⟩))

theorem upsertMessage_unseen_of_present (hkey : peers.key record.messageKey = true) {stored : MailRow}
    (hst : db.mailMessages.find? record.mailKey = some stored) (hparts : peers.Parts db.mailMessages) :
    Ensures Fault.unaudited (fun result => Unseen peers db result.2)
      (upsertMessage world ambient record provenance db) := by
  obtain ⟨existing, -, hrun⟩ := upsertMessage_of_present world ambient provenance hst
  rw [hrun]
  refine ((admissionChecks_plain).weaken unaudited_of_plain).bind (fun _ _ => ?_)
  exact ⟨⟨rfl, rfl, rfl, rfl, rfl, rfl, rfl, Foreign.sameMarks_upsert_inside hkey⟩, hparts⟩

theorem markMessagesRead_sameMarks (peers : Foreign) (mailbox : MailboxScope) (updatedAt nextDue : IsoTimestamp)
    (keys : List MessageKey) (states : Table MessageStateRow.key) :
    Returns (peers.SameMarks states) (markMessagesRead mailbox updatedAt nextDue keys states) := by
  induction keys generalizing states with
  | nil => exact .refl peers states
  | cons key keys ih =>
    unfold markMessagesRead
    split
    · refine (ih _).mono (fun states' hstates' => ?_)
      refine .trans (fun k _ => ?_) hstates'
      rw [markMessageRead, Table.find?_mapRows, Option.map_map]
      congr 1
      funext row
      simp only [Function.comp]
      split <;> rfl
    · trivial

theorem executeReadDisplayState_unseen {mailbox : MailboxScope} {messageIds : List MessageKey}
    {seenWatermark : Option IsoTimestamp} (hparts : peers.Parts db.mailMessages) :
    Ensures Fault.unaudited (Unseen peers db)
      (executeReadDisplayState ambient mailbox messageIds seenWatermark provenance db) := by
  refine ((validateCronGenerationFence_plain provenance db.cronSchedules).weaken unaudited_of_plain).bind
    (fun _ _ => ?_)
  refine (((markMessagesRead_plain mailbox _ _ messageIds db.messageStates).weaken unaudited_of_plain).of_returns
    (markMessagesRead_sameMarks peers mailbox _ _ messageIds db.messageStates)).bind (fun states hstates => ?_)
  exact ⟨⟨rfl, rfl, rfl, rfl, rfl, rfl, rfl, hstates⟩, hparts⟩

end Quiet

variable {message : DecomposedMessageRecord} {admission : DecomposedMessageAdmission}

section Decomposition

variable {peers : Foreign} {db db' : Db}

theorem decomposeRow_links (message : DecomposedMessageRecord) (row : MailRow) :
    (decomposeRow message row).links = row.links := by
  unfold decomposeRow
  split <;> rfl

theorem Decomposes.unseen (h : Decomposes message db db')
    (hkey : peers.key message.key = true) (hparts : peers.Parts db.mailMessages) : Unseen peers db db' := by
  obtain ⟨templates, documents, rfl | ⟨search, rfl⟩⟩ := h
  · exact ⟨⟨rfl, rfl, rfl, rfl, rfl, rfl, rfl, .refl peers _⟩, hparts⟩
  refine ⟨⟨rfl, rfl, rfl, rfl, rfl, rfl, ?_, .refl peers _⟩,
    hparts.mapRows (decomposeRow_key message) (decomposeRow_links message)⟩
  -- no local row has the key, so all of them stay
  have hloc : ∀ row ∈ peers.localRows db.mailMessages, decomposeRow message row = row := by
    intro row hrow
    have hrowKey : peers.key row.messageKey = false := by simpa using (mem_filter.mp hrow).2
    have hne : row.messageKey ≠ message.key := by
      rintro hrowEq
      rw [hrowEq, hkey] at hrowKey
      cases hrowKey
    simp [decomposeRow, undecomposed, hne]
  rw [peers.localRows_mapRows]
  exact ((map_congr_left hloc).trans (List.map_id' _)).symm

theorem executeDecomposedMessageAdmission_unseen
    (hkey : peers.key admission.message.key = true) (hparts : peers.Parts db.mailMessages) :
    Returns (fun result => Unseen peers db result.2) (executeDecomposedMessageAdmission world admission db) :=
  (executeDecomposedMessageAdmission_decomposes).returns.mono (fun _ h => h.unseen hkey hparts)

/-- The count of the rows that are to be rewritten, for a local key. -/
theorem Alike.undecomposed_length (h : Alike peers db db') {key : MessageKey} (hkey : peers.key key = false) :
    (db.mailMessages.rows.filter (undecomposed key)).length =
      (db'.mailMessages.rows.filter (undecomposed key)).length := by
  have hloc : ∀ t : Table MailRow.key,
      t.rows.filter (undecomposed key) = (peers.localRows t).filter (undecomposed key) := by
    intro t
    unfold Foreign.localRows
    rw [List.filter_filter]
    refine filter_congr (fun row _ => ?_)
    cases hrow : undecomposed key row with
    | false => simp
    | true =>
      have hrowKey : row.messageKey = key := by
        simp only [undecomposed, Bool.and_eq_true, decide_eq_true_eq] at hrow
        exact hrow.1
      simp [hrowKey, hkey]
  rw [hloc db.mailMessages, hloc db'.mailMessages, h.mail]

theorem Alike.persistDecomposedMessageColumns (h : Alike peers db db') (hkey : peers.key message.key = false) :
    AgreesFrom (Alike peers) (AtmCore.persistDecomposedMessageColumns message) db db' := by
  have hlen := h.undecomposed_length hkey
  have hwr := h.withMail (decomposeRow_key message) (decomposeRow_links message)
  have hok : ∀ t : Db, (t.mailMessages.rows.filter (undecomposed message.key)).length = 1 →
      ∃ documents, AtmCore.persistDecomposedMessageColumns message t = .ok { t with
        mailMessages := t.mailMessages.mapRows (decomposeRow message) (decomposeRow_key message)
        searchDocuments := documents } := by
    intro t ht
    cases hrun : AtmCore.persistDecomposedMessageColumns message t with
    | error fault =>
      unfold AtmCore.persistDecomposedMessageColumns at hrun
      rw [if_neg (by simpa using ht)] at hrun
      dsimp only at hrun
      split at hrun <;> cases hrun
    | ok written =>
      obtain ⟨documents, rfl⟩ := persistDecomposedMessageColumns_eq_ok hrun
      exact ⟨documents, rfl⟩
  by_cases hone : (db.mailMessages.rows.filter (undecomposed message.key)).length = 1
  · obtain ⟨documents, hleft⟩ := hok db hone
    obtain ⟨documents', hr⟩ := hok db' (hlen ▸ hone)
    unfold AgreesFrom
    rw [hleft, hr]
    exact ⟨⟨hwr.tasks, hwr.taskEvents, hwr.roster, hwr.schedules, hwr.events, hwr.intents, hwr.mail, hwr.marks⟩,
      hwr.parts, hwr.parts'⟩
  · unfold AgreesFrom AtmCore.persistDecomposedMessageColumns
    rw [if_pos hone, if_pos (hlen ▸ hone)]
    rfl

theorem Alike.executeDecomposedMessageAdmission (h : Alike peers db db') (world : World)
    (hkey : peers.key admission.message.key = false) : AgreesFrom (After (Alike peers))
      (AtmCore.executeDecomposedMessageAdmission world admission) db db' := by
  obtain ⟨templates, documents, hleft⟩ := insertTemplateIfAbsent_eq admission.template db
  obtain ⟨templates', documents', hr⟩ := insertTemplateIfAbsent_eq admission.template db'
  have htemplate : Alike peers (insertTemplateIfAbsent admission.template db).2
      (insertTemplateIfAbsent admission.template db').2 := by
    rw [hleft, hr]
    exact ⟨⟨h.tasks, h.taskEvents, h.roster, h.schedules, h.events, h.intents, h.mail, h.marks⟩, h.parts, h.parts'⟩
  have hloc : ∀ (t : Table MailRow.key), ∀ row ∈ t.rows, decide (row.messageKey = admission.message.key) = true →
      peers.key row.messageKey = false := by
    intro t row _ hrow
    rw [of_decide_eq_true hrow]
    exact hkey
  refine agrees_bind_self (fun _ _ => ?_)
  dsimp only
  rw [peers.find?_localRows (hloc _), peers.find?_localRows (hloc _), htemplate.mail]
  split
  · rfl
  split
  · split
    · exact htemplate
    · rfl
  · exact (htemplate.persistDecomposedMessageColumns hkey).bind (fun written written' hwr => hwr)

end Decomposition

end AtmCore
