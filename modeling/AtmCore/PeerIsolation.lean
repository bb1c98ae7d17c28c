import AtmCore.PeerAcknowledgement

/-! Mail from peers does not drive the ledger. Two runs, one with the admissions of the peers and one without, stay the
same locally: an admission of a peer is unseen, and a local operation takes the same branches in both, or is itself
about a message of a peer and then changes nothing local. So both runs end with the same tasks and the same log. -/

namespace AtmCore

open Fallible Lockstep

/-- The admission of a message from a peer, ordinary or from a template. -/
def WriteOp.isPeerAdmission : WriteOp → Bool
  | upsertMessage _ provenance => decide (provenance = .peer)
  | admitTemplateMessage admission => decide (admission.provenance = .peer)
  | _ => false

/-- The step without the admissions of peers. -/
def StoreOp.withoutPeers : StoreOp → Option StoreOp
  | .write queued => if queued.op.isPeerAdmission then none else some (.write queued)
  | .batch openError commitError writes =>
    some (.batch openError commitError (writes.filter (fun queued => !queued.op.isPeerAdmission)))
  | op => some op

/-- The messages of peers take the names of the peers, every other message takes others: the ones that are admitted,
the notices under fresh ids, and the replies of acknowledgements, which go with the message they answer. -/
def Foreign.Respects (peers : Foreign) (queued : QueuedWrite) : Prop :=
  if queued.op.isPeerAdmission then ∀ record, queued.op.admits = some record → peers.Inside record.links
  else
    (∀ n, peers.Outside (.ofId (queued.ambient.fresh n))) ∧
      match queued.op with
      | .upsertMessage record _ => peers.Outside record.links
      | .upsertMessages records => ∀ record ∈ records, peers.Outside record.links
      | .admitTemplateMessage admission => peers.Outside admission.record.links
      | .acknowledge source builder _ =>
        ∃ (kind : AtomicAcknowledgementKind) (fresh : AtmMessageId) (now : IsoTimestamp),
          builder = kind.builder fresh now ∧
            if peers.id source.messageId then peers.Inside (.ofId (kind.replyId fresh))
            else peers.Outside (.ofId (kind.replyId fresh))
      | _ => True

def Foreign.RespectsStep (peers : Foreign) : StoreOp → Prop
  | .write queued => peers.Respects queued
  | .batch _ _ writes => ∀ queued ∈ writes, peers.Respects queued
  | _ => True

/-- The store holds no message and no task that mixes the two kinds. -/
structure Foreign.Sorted (peers : Foreign) (db : Db) : Prop where
  parts : peers.Parts db.mailMessages
  linked : LinkedTo (fun id => peers.id id = false) db.tasks

theorem Foreign.Sorted.beside {peers : Foreign} {db : Db} (h : peers.Sorted db) : Beside peers db db :=
  ⟨⟨.refl peers db, h.parts, h.parts⟩, h.linked⟩

variable {world : World} {queued : QueuedWrite} {Q : Db → Prop} {admission : TemplateMessageAdmission}

section Peers

variable {peers : Foreign} {db : Db}

/-- What keeps the ledger keeps it through the audit, when there is nothing to audit. -/
theorem processQueuedWrite_of_no_subject (hsubj : rejectedEventSubject queued.op db = .ok none) (hdb : Q db)
    (h : Returns (fun result => Q result.2) (execute world queued.ambient queued.op db)) :
    Q (processQueuedWrite world queued db).2 := by
  unfold processQueuedWrite
  cases hrun : execute world queued.ambient queued.op db with
  | ok result => exact h.of_eq_ok hrun
  | error fault =>
    cases fault with
    | panic => exact hdb
    | err error =>
      have haudit : appendRejectedTaskEvent queued.ambient queued.op error db = .ok (none, db) := by
        unfold appendRejectedTaskEvent
        rw [hsubj]
        split <;> rfl
      dsimp only
      rw [haudit]
      exact hdb

theorem WriteOp.rejectedEventSubject_of_peer {op : WriteOp} (h : op.isPeerAdmission = true) :
    rejectedEventSubject op db = .ok none := by
  cases op with
  | upsertMessage record provenance =>
    obtain rfl := of_decide_eq_true h
    rfl
  | admitTemplateMessage admission => rfl
  | _ => cases h

theorem TemplateMessageAdmission.validate_key {done : Unit} (h : admission.validate world = .ok done) :
    admission.record.messageKey = admission.decomposition.message.key := by
  obtain ⟨_, -, h⟩ := bind_eq_ok.mp h
  by_cases hkey : admission.record.messageKey = admission.decomposition.message.key
  · exact hkey
  · rw [if_pos hkey] at h
    cases h

/-- A property of the store that the insertion of the message keeps, and the template columns, is kept by the
admission of a peer. -/
theorem processQueuedWrite_of_peer {world : World} {queued : QueuedWrite}
    (hpeer : queued.op.isPeerAdmission = true) (hdb : Q db) (hins : ∀ record, queued.op.admits = some record →
      Returns (fun result => Q result.2) (insertMessageCanonical world record (queued.ambient.clock 0) db))
    (hdec : ∀ admission written, queued.op = .admitTemplateMessage admission →
      admission.record.messageKey = admission.decomposition.message.key → Q written →
      Returns (fun result => Q result.2) (executeDecomposedMessageAdmission world admission.decomposition written)) :
    Q (processQueuedWrite world queued db).2 := by
  refine processQueuedWrite_of_no_subject (WriteOp.rejectedEventSubject_of_peer hpeer) hdb ?_
  obtain ⟨op, ambient⟩ := queued
  cases op with
  | upsertMessage record provenance =>
    obtain rfl := of_decide_eq_true hpeer
    exact (upsertMessage_quiet world ambient (.inr rfl) (hins record rfl)).returns.bind (fun _ h => h)
  | admitTemplateMessage admission =>
    have hprovenance : admission.provenance = .peer := of_decide_eq_true hpeer
    have hquiet : admission.provenance.isLocal = false := by rw [hprovenance]; rfl
    suffices hadmits : Returns (fun result => Q result.2) (executeAdmitTemplateMessage world ambient admission db) from
      hadmits.bind (fun result h => by exact h)
    unfold executeAdmitTemplateMessage
    cases hval : admission.validate world with
    | error error => trivial
    | ok _ =>
      have hkey := TemplateMessageAdmission.validate_key hval
      refine (upsertMessage_quiet world ambient (.inr hquiet) (hins admission.record rfl)).returns.bind ?_
      rintro ⟨result, written⟩ hwr
      dsimp only
      split
      · exact (hdec admission written rfl hkey hwr).bind (fun _ h => h)
      · exact hwr
  | _ => cases hpeer

theorem processQueuedWrite_unseen (hpeer : queued.op.isPeerAdmission = true) (hresp : peers.Respects queued)
    (hparts : peers.Parts db.mailMessages) : Unseen peers db (processQueuedWrite world queued db).2 := by
  unfold Foreign.Respects at hresp
  rw [if_pos hpeer] at hresp
  refine processQueuedWrite_of_peer hpeer (.refl hparts) (fun record hrec => ?_) ?_
  · exact (insertMessageCanonical_inside (hresp record hrec) hparts).mono (fun _ h => ⟨h.1, h.2⟩)
  · intro admission written hop hkey hwr
    have hins : peers.key admission.record.messageKey = true := by
      refine (hresp admission.record ?_).key
      rw [hop]
      rfl
    rw [hkey] at hins
    exact (executeDecomposedMessageAdmission_unseen hins hwr.parts).mono (fun _ h => hwr.trans h)

theorem processQueuedWrite_sameLedger_of_peer (hpeer : queued.op.isPeerAdmission = true) :
    SameLedger db (processQueuedWrite world queued db).2 := by
  refine processQueuedWrite_of_peer hpeer (.refl db) (fun record _ => ?_) ?_
  · exact (insertMessageCanonical_sameLedger).returns
  · intro admission written _ _ hwr
    refine (executeDecomposedMessageAdmission_spec world admission.decomposition written).returns.mono ?_
    intro result hres
    exact ⟨hres.tasks.trans hwr.tasks, hres.events.trans hwr.events⟩

end Peers

variable {ambient : Ambient}

section Local

variable {peers : Foreign} {db db' : Db} {queued : QueuedWrite}

/-- The two runs of an operation agree, and so do the subjects of their audits. -/
theorem Beside.process_of_agrees (h : Beside peers db db')
    (hsubj : rejectedEventSubject queued.op db = rejectedEventSubject queued.op db')
    (hagr : AgreesFrom (After (Beside peers)) (execute world queued.ambient queued.op) db db') :
    Beside peers (processQueuedWrite world queued db).2 (processQueuedWrite world queued db').2 := by
  unfold processQueuedWrite
  rcases hagr.cases with ⟨fault, hleft, hr⟩ | ⟨result, result', hleft, hr, hres⟩
  · rw [hleft, hr]
    cases fault with
    | panic => exact h
    | err error =>
      have haudit : AgreesFrom (After (Beside peers))
          (appendRejectedTaskEvent queued.ambient queued.op error) db db' := by
        unfold AgreesFrom appendRejectedTaskEvent
        rw [← hsubj, ← h.tasks, ← h.taskEvents]
        split
        · exact h
        · refine agrees_bind_self (fun subject _ => ?_)
          cases subject with
          | none => exact h
          | some subject =>
            refine agrees_bind_self (fun row _ => agrees_bind_self (fun event _ => ?_))
            exact ⟨h.toAlike.withLedger event.2, h.linked⟩
      dsimp only
      rcases haudit.cases with ⟨fault, hleft', hr'⟩ | ⟨audited, audited', hleft', hr', haudited⟩
      · rw [hleft', hr']
        cases fault <;> exact h
      · rw [hleft', hr']
        exact haudited
  · rw [hleft, hr]
    exact hres

theorem Beside.process_of_unseen (h : Beside peers db db')
    (hunseen : ∀ t : Db, peers.Parts t.mailMessages → Unseen peers t (processQueuedWrite world queued t).2) :
    Beside peers (processQueuedWrite world queued db).2 (processQueuedWrite world queued db').2 :=
  (h.unseen_left (hunseen db h.parts)).unseen_right (hunseen db' h.parts')

theorem processQueuedWrite_unseen_of_ensures (hparts : peers.Parts db.mailMessages)
    (h : Ensures Fault.unaudited (fun result => Unseen peers db result.2) (execute world queued.ambient queued.op db)) :
    Unseen peers db (processQueuedWrite world queued db).2 := by
  cases hrun : execute world queued.ambient queued.op db with
  | error fault =>
    rw [processQueuedWrite_of_unaudited hrun (h.of_eq_error hrun)]
    exact .refl hparts
  | ok result =>
    rw [processQueuedWrite_of_execute hrun]
    exact h.of_eq_ok hrun

theorem Beside.executeUpsertMessages (world : World) {records : List Message}
    (hrecords : ∀ record ∈ records, peers.Outside record.links)
    (hfr : ∀ n, peers.Outside (.ofId (ambient.fresh n))) {db db' : Db} (h : Beside peers db db') :
    AgreesFrom (Beside peers) (AtmCore.executeUpsertMessages world ambient records) db db' := by
  induction records generalizing ambient db db' with
  | nil => exact h
  | cons record records ih =>
    refine (h.upsertMessage world (hrecords record List.mem_cons_self) hfr .local).bind ?_
    rintro ⟨result, written⟩ ⟨result', written'⟩ ⟨-, hwr⟩
    have hlater : ∀ n, peers.Outside (.ofId ((ambient.from admissionReadings).fresh n)) :=
      fun n => hfr (admissionReadings + n)
    exact ih (fun other hother => hrecords other (List.mem_cons_of_mem record hother)) hlater hwr

section

variable (h : Beside peers db db')
include h

theorem Beside.executeAdmitTemplateMessage (world : World)
    (hfr : ∀ n, peers.Outside (.ofId (ambient.fresh n))) (hrec : peers.Outside admission.record.links) :
    AgreesFrom (After (Beside peers)) (AtmCore.executeAdmitTemplateMessage world ambient admission) db db' := by
  unfold AgreesFrom AtmCore.executeAdmitTemplateMessage
  cases hval : admission.validate world with
  | error error => rfl
  | ok _ =>
    have hkey : peers.key admission.decomposition.message.key = false := by
      rw [← TemplateMessageAdmission.validate_key hval]
      exact hrec.key
    refine (h.upsertMessage world hrec hfr admission.provenance).bind ?_
    rintro ⟨result, written⟩ ⟨result', written'⟩ ⟨hins, hwr⟩
    dsimp only
    rw [← show result.inserted = result'.inserted from hins]
    split
    · have hsame := (executeDecomposedMessageAdmission_spec world admission.decomposition written).returns
      refine ((hwr.toAlike.executeDecomposedMessageAdmission world hkey).and_returns hsame (returns_any _)).bind ?_
      rintro ⟨outcome, decomposed⟩ ⟨outcome', decomposed'⟩ ⟨halike, hledger, -⟩
      refine ⟨halike, ?_⟩
      rw [show decomposed.tasks = written.tasks from hledger.tasks]
      exact hwr.linked
    · exact hwr

theorem Beside.applyTaskMove (ambient : Ambient) (team : TeamName) (taskId : TaskId)
    (actor : AgentName) (target : MoveTarget) (instant : IsoTimestamp) :
    AgreesFrom (After (Beside peers)) (AtmCore.applyTaskMove ambient team taskId actor target instant) db db' := by
  have hlink := applyTaskMove_linked ambient team taskId actor target instant h.linked
  suffices halike : AgreesFrom (After (Alike peers))
      (AtmCore.applyTaskMove ambient team taskId actor target instant) db db' from
    (halike.and_returns hlink (returns_any _)).mono (fun _ _ hres => ⟨hres.1, hres.2.1⟩)
  unfold AgreesFrom AtmCore.applyTaskMove
  rw [← h.tasks, ← h.taskEvents]
  refine agrees_bind_self (fun row _ => ?_)
  cases row with
  | none => rfl
  | some row =>
    dsimp only
    split
    · rfl
    refine agrees_bind_self (fun nextState _ => ?_)
    split
    · exact agrees_bind_self (fun position _ => agrees_bind_self (fun event _ => h.toAlike.withLedger event.2))
    · unfold applyQueuedTaskMove
      rw [← h.tasks, ← h.taskEvents]
      cases row.position with
      | none => rfl
      | some fromPosition =>
        refine agrees_bind_self (fun ids _ => agrees_bind_self (fun tasks _ => ?_))
        exact agrees_bind_self (fun position _ => agrees_bind_self (fun event _ => h.toAlike.withLedger event.2))

theorem Beside.move (world : World) (ambient : Ambient) (team : TeamName) (taskId : TaskId)
    (actor : AgentName) (target : MoveTarget) (instant : IsoTimestamp) (provenance : MessageWriteOrigin) :
    Beside peers (processQueuedWrite world ⟨.taskMove team taskId actor target instant provenance, ambient⟩ db).2
      (processQueuedWrite world ⟨.taskMove team taskId actor target instant provenance, ambient⟩ db').2 := by
  refine h.process_of_agrees rfl (Agrees.bind (R := After (Beside peers)) ?_ (fun _ _ hr => by exact hr))
  unfold executeTaskMove
  rw [← h.schedules]
  exact agrees_bind_self (fun _ _ => h.applyTaskMove ambient team taskId actor target instant)

theorem Beside.executeDeleteMessage (key : MessageKey) (provenance : MessageWriteOrigin) :
    AgreesFrom (Beside peers) (AtmCore.executeDeleteMessage key provenance) db db' := by
  unfold AgreesFrom AtmCore.executeDeleteMessage
  rw [← h.schedules]
  refine agrees_bind_self (fun _ _ => ?_)
  refine ⟨⟨⟨h.tasks, h.taskEvents, h.roster, rfl, h.events, h.intents, ?_, h.marks.filterRows key⟩,
    h.parts.filterRows _, h.parts'.filterRows _⟩, h.linked⟩
  rw [peers.localRows_filterRows, peers.localRows_filterRows, h.mail]

end

theorem Alike.rejectedEventSubject_acknowledge (h : Alike peers db db') {source : AcknowledgementSource}
    (hsrc : peers.id source.messageId = false) {builder : AcknowledgementReplyBuilder}
    {provenance : MessageWriteOrigin} : rejectedEventSubject (.acknowledge source builder provenance) db =
      rejectedEventSubject (.acknowledge source builder provenance) db' := by
  simp only [rejectedEventSubject]
  rcases (h.loadPendingAckSource hsrc).cases with ⟨fault, hleft, hr⟩ |
    ⟨message, message', hleft, hr, -, read, hread⟩
  · rw [hleft, hr]
  · rw [hleft, hr, hread]
    rfl

/-- A local operation keeps the two stores the same locally. -/
theorem Beside.processQueuedWrite (h : Beside peers db db') (world : World)
    (hloc : queued.op.isPeerAdmission = false) (hresp : peers.Respects queued) :
    Beside peers (AtmCore.processQueuedWrite world queued db).2 (AtmCore.processQueuedWrite world queued db').2 := by
  unfold Foreign.Respects at hresp
  rw [if_neg (by simp [hloc])] at hresp
  obtain ⟨op, ambient⟩ := queued
  obtain ⟨hfr, hop⟩ := hresp
  cases op with
  | applyReadDisplayState mailbox messageIds seenWatermark provenance =>
    refine h.process_of_unseen (fun t ht => processQueuedWrite_unseen_of_ensures ht ?_)
    exact (executeReadDisplayState_unseen ht).bind (fun _ hr => hr)
  | deleteMessage key provenance =>
    exact h.process_of_agrees rfl ((h.executeDeleteMessage key provenance).bind (fun _ _ hr => hr))
  | upsertMessage record provenance =>
    exact h.process_of_agrees rfl ((h.upsertMessage world hop hfr provenance).bind (fun _ _ hr => hr.2))
  | upsertMessages records =>
    exact h.process_of_agrees rfl ((Beside.executeUpsertMessages world hop hfr h).bind (fun _ _ hr => hr))
  | acknowledge source builder provenance =>
    obtain ⟨kind, fresh, now, rfl, hreply⟩ := hop
    cases hsrc : peers.id source.messageId with
    | true =>
      rw [if_pos hsrc] at hreply
      refine h.process_of_unseen (fun t ht => processQueuedWrite_unseen_of_ensures ht ?_)
      exact (executeAcknowledgement_unseen hsrc hreply ht).bind (fun _ hr => hr)
    | false =>
      rw [if_neg (by simp [hsrc])] at hreply
      refine h.process_of_agrees (h.toAlike.rejectedEventSubject_acknowledge hsrc) ?_
      exact (h.executeAcknowledgement world hfr kind fresh now provenance hsrc hreply).bind (fun _ _ hr => hr)
  | taskMove team taskId actor target instant provenance =>
    exact h.move world ambient team taskId actor target instant provenance
  | registerTemplate request =>
    refine h.process_of_unseen (fun t ht => processQueuedWrite_of_no_subject rfl (.refl ht) ?_)
    refine (execute_does).mono (fun result hr => ?_)
    obtain ⟨templates, documents, heq⟩ := hr
    exact heq ▸ ⟨⟨rfl, rfl, rfl, rfl, rfl, rfl, rfl, .refl peers _⟩, ht⟩
  | admitDecomposedMessage admission =>
    cases hkey : peers.key admission.message.key with
    | true =>
      refine h.process_of_unseen (fun t ht => processQueuedWrite_of_no_subject rfl (.refl ht) ?_)
      exact (executeDecomposedMessageAdmission_unseen hkey ht).bind (fun _ hr => hr)
    | false =>
      refine h.process_of_agrees rfl ?_
      have hsame := (executeDecomposedMessageAdmission_spec world admission db).returns
      refine ((h.toAlike.executeDecomposedMessageAdmission world hkey).and_returns hsame (returns_any _)).bind ?_
      rintro ⟨outcome, decomposed⟩ ⟨outcome', decomposed'⟩ ⟨halike, hledger, -⟩
      refine ⟨halike, ?_⟩
      rw [show decomposed.tasks = db.tasks from hledger.tasks]
      exact h.linked
  | admitTemplateMessage admission =>
    exact h.process_of_agrees rfl ((h.executeAdmitTemplateMessage world hfr hop).bind (fun _ _ hr => hr))
  | recordDiagnostics | pruneDiagnostics =>
    refine h.process_of_unseen (fun t ht => ?_)
    exact ⟨⟨rfl, rfl, rfl, rfl, rfl, rfl, rfl, .refl peers _⟩, ht⟩

end Local

end AtmCore
