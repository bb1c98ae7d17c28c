import AtmCore.PeerAcknowledgement

/-! An acknowledgement is one write: the reply is stored and the source settled together, or no mailbox changes. The
settled source is no longer pending, so it is not acknowledged again. -/

namespace AtmCore

open Rows Fallible Option

/-- A request to acknowledge: the reply is built with a fresh id, under the readings of its write. -/
structure AckAttempt where
  kind : AtomicAcknowledgementKind
  fresh : AtmMessageId
  now : IsoTimestamp
  provenance : MessageWriteOrigin
  ambient : Ambient

def AckAttempt.builder (attempt : AckAttempt) : AcknowledgementReplyBuilder :=
  attempt.kind.builder attempt.fresh attempt.now

def AckAttempt.write (attempt : AckAttempt) (source : AcknowledgementSource) : QueuedWrite :=
  ⟨.acknowledge source attempt.builder attempt.provenance, attempt.ambient⟩

/-- The reply has a key that no stored message has. -/
def AckAttempt.Fresh (attempt : AckAttempt) (db : Db) : Prop :=
  ∀ row ∈ db.mailMessages.rows, row.messageKey ≠ .fromAtmMessageId (attempt.kind.replyId attempt.fresh)

variable {world : World} {source : AcknowledgementSource} {attempt : AckAttempt} {db db' : Db} {record : Message}
  {row : MailRow} {state : MessageStateRow}

def Reply.committed : Reply → Bool
  | .ok ⟨.ok _, _⟩ => true
  | _ => false

theorem upsertMessage_inserts {ambient : Ambient} {provenance : MessageWriteOrigin}
    (htask : record.envelope.taskId = none) (hfr : db.mailMessages.find? record.mailKey = none) :
    Returns (fun result => InsertsMessage world record (ambient.clock 0) db result.2)
      (upsertMessage world ambient record provenance db) := by
  refine .skip (fun _ => (returns_any _).and_eq.bind ?_)
  rintro ⟨inserted, stored⟩ ⟨-, hins⟩
  cases inserted with
  | false =>
    obtain ⟨⟨stored, hst⟩, -⟩ := insertMessageCanonical_eq_false hins
    rw [hfr] at hst
    cases hst
  | true =>
    dsimp only
    split
    · rw [applyTaskMessage, htask]
      exact insertMessageCanonical_inserts hins
    · exact insertMessageCanonical_inserts hins

theorem acknowledgementSourceRow_find (h : acknowledgementSourceRow source db = some (row, state)) :
    db.mailMessages.rows.find? (fun row => decide (row.team = source.team) && decide (row.agent = source.agent) &&
        decide (row.messageId = some source.messageId)) = some row ∧
      db.messageStates.find? row.key = some state ∧ state.deletedAt = none := by
  obtain ⟨found, hf, h⟩ := bind_eq_some_iff.mp h
  obtain ⟨joined, hjoin, h⟩ := bind_eq_some_iff.mp h
  cases h
  obtain ⟨hstate, hlive⟩ := filter_eq_some_iff.mp hjoin
  exact ⟨hf, hstate, of_decide_eq_true hlive⟩

theorem loadPendingAckSource_eq_ok {loaded : Message} (h : loadPendingAckSource source db = .ok loaded) :
    ∃ row state, acknowledgementSourceRow source db = some (row, state) ∧ hasSuccessor source db = false ∧
      state.pendingAckAt.isSome = true ∧ loaded.mailKey = row.key := by
  unfold loadPendingAckSource at h
  split at h
  · cases h
  next row state hrow =>
  obtain ⟨-, hteam, hag, -⟩ := acknowledgementSourceRow_eq_some hrow
  split at h
  · cases h
  next hsucc =>
  split at h
  · cases h
  next hpend =>
  cases h
  refine ⟨row, state, hrow, Bool.eq_false_iff.mpr hsucc, ?_, ?_⟩
  · cases hat : state.pendingAckAt with
    | none => rw [hat] at hpend; exact absurd rfl hpend
    | some => rfl
  · rw [Message.mailKey, MailRow.key, hteam, hag]

/-- What a committed acknowledgement found, and what it wrote. -/
structure Acknowledges (world : World) (attempt : AckAttempt) (source : AcknowledgementSource) (row : MailRow)
    (state : MessageStateRow) (db db' : Db) : Prop where
  found : acknowledgementSourceRow source db = some (row, state)
  terminal : hasSuccessor source db = false
  pending : state.pendingAckAt.isSome = true
  stored : ∃ loaded reply replied, loadPendingAckSource source db = .ok loaded ∧
    attempt.builder.buildReply loaded = .ok reply ∧
    prepareMessageRow world reply (attempt.ambient.clock 1) = .ok replied ∧
    db'.mailMessages.rows = db.mailMessages.rows ++ [replied]
  settled : ∃ settled, db'.messageStates.find? row.key = some settled ∧ settled.read = true ∧
    settled.acknowledgedAt = some (attempt.ambient.clock 0) ∧ settled.pendingAckAt = none

theorem AckAttempt.acknowledges (hfr : attempt.Fresh db)
    (h : (attempt.write source).op.Does world attempt.ambient db db') :
    ∃ row state, Acknowledges world attempt source row state db db' := by
  obtain ⟨loaded, reply, first, written, second, hload, hbuild, hfirst, hsecond⟩ := h
  obtain ⟨row, state, hrow, hsucc, hpend, hkey⟩ := loadPendingAckSource_eq_ok hload
  have hreply : reply.IsReply (attempt.kind.replyId attempt.fresh) := builder_unaudited.of_eq_ok hbuild
  have hnew : db.mailMessages.find? reply.mailKey = none := by
    rw [Table.find?_eq_none_iff]
    intro stored hst heq
    refine hfr stored hst ?_
    rw [← hreply.messageKey]
    exact congrArg (fun key => key.2.2) heq
  obtain ⟨replied, hprep, -, hrows⟩ := ((upsertMessage_inserts hreply.untasked hnew).of_eq_ok hfirst).row
  -- the source is still there, so its second admission only restates it
  have hstored : written.mailMessages.find? (markSourceAcknowledged loaded (attempt.ambient.clock 0)).mailKey =
      some row := by
    show written.mailMessages.find? loaded.mailKey = some row
    rw [hkey]
    exact Table.find?_key (hrows ▸ List.mem_append_left _ (acknowledgementSourceRow_eq_some hrow).1)
  cases (upsertMessage_admitted _ _ _ _ _).of_eq_ok hsecond with
  | inserted stored hagain => exact absurd hagain.fresh (by rw [hstored]; nofun)
  | present existing _ _ hmail hstates =>
    refine ⟨row, state, hrow, hsucc, hpend, ⟨loaded, reply, replied, hload, hbuild, hprep, by rw [hmail, hrows]⟩, ?_⟩
    rw [hstates, find?_upsertMessageState, if_pos (show (markSourceAcknowledged loaded _).mailKey = row.key from hkey)]
    cases written.messageStates.find? row.key <;> exact ⟨_, rfl, rfl, rfl, rfl⟩

/-- The source is not pending. -/
def NotPending (source : AcknowledgementSource) (db : Db) : Prop :=
  ∀ row state, acknowledgementSourceRow source db = some (row, state) → state.pendingAckAt = none

theorem Acknowledges.settles (h : Acknowledges world attempt source row state db db') : NotPending source db' := by
  intro row' state' hf
  obtain ⟨_, _, replied, -, -, -, hrows⟩ := h.stored
  obtain ⟨settled, hset, -, -, hnone⟩ := h.settled
  obtain ⟨hfind, -⟩ := acknowledgementSourceRow_find h.found
  obtain ⟨hfind', hstate, -⟩ := acknowledgementSourceRow_find hf
  rw [hrows, List.find?_append, hfind, some_or] at hfind'
  cases hfind'
  rw [hset] at hstate
  cases hstate
  exact hnone

/-- A request fails and leaves the mail, or it is committed. -/
theorem AckAttempt.cases (world : World) (source : AcknowledgementSource) (hfr : attempt.Fresh db) :
    ((processQueuedWrite world (attempt.write source) db).1.committed = false ∧
      SameMail db (processQueuedWrite world (attempt.write source) db).2) ∨
    ((processQueuedWrite world (attempt.write source) db).1.committed = true ∧
      ∃ row state, Acknowledges world attempt source row state db
        (processQueuedWrite world (attempt.write source) db).2) := by
  cases hrun : execute world (attempt.write source).ambient (attempt.write source).op db with
  | ok result =>
    rw [processQueuedWrite_of_execute hrun]
    exact .inr ⟨rfl, attempt.acknowledges hfr (execute_does.of_eq_ok hrun)⟩
  | error fault =>
    refine .inl ⟨?_, processQueuedWrite_sameMail_of_error hrun⟩
    rw [processQueuedWrite, hrun]
    cases fault with
    | panic => rfl
    | err error =>
      dsimp only
      split <;> rfl

/-- Requests for one source, of which so many were committed, with other writes that leave the source as it is. -/
inductive AckRun (world : World) (source : AcknowledgementSource) : Db → Nat → Db → Prop where
  | done (db : Db) : AckRun world source db 0 db
  | request {db last : Db} {count : Nat} (attempt : AckAttempt) (hfresh : attempt.Fresh db)
      (hrest : AckRun world source (processQueuedWrite world (attempt.write source) db).2 count last) :
      AckRun world source db (count + (processQueuedWrite world (attempt.write source) db).1.committed.toNat) last
  | other {db next last : Db} {count : Nat}
      (hsame : acknowledgementSourceRow source next = acknowledgementSourceRow source db)
      (hrest : AckRun world source next count last) : AckRun world source db count last

theorem AckRun.committed_le {count : Nat} {last : Db} (h : AckRun world source db count last) :
    count ≤ 1 ∧ (NotPending source db → count = 0) := by
  induction h with
  | done => exact ⟨Nat.zero_le _, fun _ => rfl⟩
  | request attempt hfr hrest ih =>
    rcases attempt.cases world source hfr with ⟨hfail, hsame⟩ | ⟨hok, row, state, hack⟩
    · rw [hfail]
      refine ⟨ih.1, fun hset => ih.2 (fun row state hf => hset row state ?_)⟩
      rwa [acknowledgementSourceRow, hsame.messages, hsame.states] at hf
    · rw [hok, ih.2 hack.settles]
      refine ⟨le_rfl, fun hset => ?_⟩
      have hpend := hack.pending
      rw [hset row state hack.found] at hpend
      cases hpend
  | other hsame hrest ih => exact ⟨ih.1, fun hset => ih.2 (fun row state hf => hset row state (hsame ▸ hf))⟩

/-- An acknowledgement with a fresh reply changes no mailbox, or stores the reply and settles its source, a live,
pending and terminal message of the mailbox; and a source is acknowledged once. -/
theorem acknowledgement_once (world : World) (source : AcknowledgementSource) (db : Db) :
    (∀ attempt : AckAttempt, attempt.Fresh db →
      let write := processQueuedWrite world (attempt.write source) db
      (write.1.committed = false ∧ SameMail db write.2) ∨
      (write.1.committed = true ∧ ∃ row state, Acknowledges world attempt source row state db write.2 ∧
        row ∈ db.mailMessages.rows ∧ row.team = source.team ∧ row.agent = source.agent ∧
        row.messageId = some source.messageId ∧ db.messageStates.find? row.key = some state ∧ state.deletedAt = none)) ∧
    ∀ count last, AckRun world source db count last → count ≤ 1 := by
  refine ⟨fun attempt hfr => ?_, fun count last hrun => hrun.committed_le.1⟩
  rcases attempt.cases world source hfr with hfail | ⟨hok, row, state, hack⟩
  · exact .inl hfail
  · obtain ⟨hmem, hteam, hag, hid, hstate⟩ := acknowledgementSourceRow_eq_some hack.found
    exact .inr ⟨hok, row, state, hack, hmem, hteam, hag, hid, hstate, (acknowledgementSourceRow_find hack.found).2.2⟩

end AtmCore
