import AtmCore.PeerIsolation

/-! Runs with and without peers. The admissions of peers are deleted from a run, from the single writes and from the
batches; the rest of the run then takes the ledger along the same states. What goes beside the writer (moves,
reminders, the roster and the cron store) does not look at the mail at all. -/

namespace AtmCore

open Lockstep List

variable {writes : List QueuedWrite} {ops : List StoreOp}

section Steps

variable {peers : Foreign} {db db' : Db}

theorem Beside.runSingly (world : World) (hresp : ∀ queued ∈ writes, peers.Respects queued) {db db' : Db}
    (h : Beside peers db db') : Beside peers (Batching.runSingly (AtmCore.processQueuedWrite world) writes db).2
      (Batching.runSingly (AtmCore.processQueuedWrite world)
        (writes.filter (fun queued => !queued.op.isPeerAdmission)) db').2 := by
  induction writes generalizing db db' with
  | nil => exact h
  | cons queued writes ih =>
    have hq := hresp queued mem_cons_self
    have hrest := fun other hother => hresp other (mem_cons_of_mem queued hother)
    cases hpeer : queued.op.isPeerAdmission with
    | true =>
      rw [filter_cons_of_neg (by simp [hpeer])]
      exact ih hrest (h.unseen_left (processQueuedWrite_unseen hpeer hq h.parts))
    | false =>
      rw [filter_cons_of_pos (by simp [hpeer])]
      exact ih hrest (h.processQueuedWrite world hpeer hq)

theorem Beside.processBatch (h : Beside peers db db') (world : World) (openError commitError : Option AtmError)
    (hresp : ∀ queued ∈ writes, peers.Respects queued) :
    Beside peers (AtmCore.processBatch world openError commitError writes db).2
      (AtmCore.processBatch world openError commitError
        (writes.filter (fun queued => !queued.op.isPeerAdmission)) db').2 := by
  rw [processBatch_snd, processBatch_snd]
  split
  · exact Beside.runSingly world hresp h
  · exact h

theorem Beside.recordOnTask (h : Beside peers db db') (order : RowOrder) (member : MemberKey) (taskId : TaskId)
    (missing what : String) {set : TaskColumns → TaskColumns} (hset : ∀ row, (set row).key = row.key)
    (hlink : ∀ row, (set row).assignmentMessageId = row.assignmentMessageId)
    (append : TaskState → List TaskEventColumns → TaskEventRow × List TaskEventColumns) :
    AgreesFrom (SameAfter (Beside peers))
      (AtmCore.recordOnTask order member taskId missing what set hset append) db db' := by
  unfold AgreesFrom AtmCore.recordOnTask
  rw [← h.tasks, ← h.taskEvents]
  refine agrees_bind_self (fun row _ => ?_)
  cases row with
  | none => rfl
  | some row =>
    refine agrees_bind_self (fun tasks htasks => ?_)
    exact ⟨rfl, h.toAlike.withLedger _, (updateTasks_linked h.linked
      (fun stored hst => by rw [hlink]; exact hst)).of_eq_ok htasks⟩

theorem Beside.reloadAfter (member : MemberKey) (taskId : TaskId) (vanished : String)
    {result result' : TaskEventRow × Db} (h : SameAfter (Beside peers) result result') :
    Agrees (fun reloaded reloaded' => Beside peers reloaded.2.2 reloaded'.2.2)
      (AtmCore.reloadAfter member taskId vanished result) (AtmCore.reloadAfter member taskId vanished result') := by
  unfold AtmCore.reloadAfter
  rw [← h.2.tasks]
  refine agrees_bind_self (fun row _ => ?_)
  cases row with
  | none => rfl
  | some row => exact h.2

variable (h : Beside peers db db')
include h

theorem Beside.remind (reminder : ReminderWrite) (order : RowOrder) (member : MemberKey) (taskId : TaskId) :
    AgreesFrom (After (Beside peers)) (reminder.run order member taskId) db db' := by
  have hmap : ∀ {x y : Outcome (TaskRow × TaskEventRow × Db)},
      Agrees (fun reloaded reloaded' => Beside peers reloaded.2.2 reloaded'.2.2) x y →
      Agrees (After (Beside peers)) (x.map Prod.snd) (y.map Prod.snd) := by
    intro x y hxy
    cases x <;> cases y <;> exact hxy
  cases reminder with
  | reminded | reset =>
    refine hmap (Agrees.bind ?_ (fun result result' hres => Beside.reloadAfter member taskId _ hres))
    refine h.recordOnTask order member taskId _ _ _ ?_ _
    exact fun row => rfl
  | leadNotified instant lead messageId =>
    simp only [AgreesFrom, ReminderWrite.run, recordLeadNotified]
    refine Agrees.mono (R := SameAfter (Beside peers)) ?_ (fun result result' hres => hres.2)
    refine h.recordOnTask order member taskId _ _ _ ?_ _
    exact fun row => rfl

theorem Beside.commitTransition (write : CronTransitionWrite) (fresh : Nat → AtmMessageId) :
    AgreesFrom (After (Beside peers)) (AtmCore.commitTransition write fresh) db db' := by
  unfold AgreesFrom AtmCore.commitTransition
  rw [← h.schedules, ← h.events, ← h.intents]
  split
  · exact h
  split
  · rfl
  split
  · exact h
  · dsimp only
    split
    all_goals
      refine agrees_bind_self (fun prior _ => agrees_bind_self (fun events _ => ?_))
      refine agrees_bind_self (fun lifecycle _ => agrees_bind_self (fun mails _ => ?_))
      exact agrees_bind_self (fun stored _ =>
        ⟨⟨⟨h.tasks, h.taskEvents, h.roster, rfl, rfl, rfl, h.mail, h.marks⟩, h.parts, h.parts'⟩, h.linked⟩)

theorem Beside.cron (op : CronOp) : Beside peers (op.apply db) (op.apply db') := by
  have hscheds : ∀ schedules, Beside peers { db with cronSchedules := schedules }
      { db' with cronSchedules := schedules } := by
    intro schedules
    exact ⟨⟨⟨h.tasks, h.taskEvents, h.roster, rfl, h.events, h.intents, h.mail, h.marks⟩, h.parts, h.parts'⟩, h.linked⟩
  cases op with
  | start schedule =>
    simp only [CronOp.apply, ← h.schedules]
    cases startSchedule schedule db.cronSchedules with
    | ok result => exact hscheds result.2
    | error error => exact h
  | «end» team phase name instant =>
    simp only [CronOp.apply, ← h.schedules]
    cases endSchedules team phase name instant db.cronSchedules with
    | ok result => exact hscheds result.2
    | error error => exact h
  | recordRun | recordStop =>
    simp only [CronOp.apply, ← h.schedules]
    exact hscheds _
  | commit write fresh =>
    simp only [CronOp.apply]
    rcases (h.commitTransition write fresh).cases with ⟨error, hleft, hr⟩ | ⟨result, result', hleft, hr, hres⟩
    · rw [hleft, hr]
      exact h
    · rw [hleft, hr]
      exact hres
  | markDelivered id generation seq outputIndex receipt =>
    simp only [CronOp.apply, ← h.intents]
    exact ⟨⟨⟨h.tasks, h.taskEvents, h.roster, h.schedules, h.events, rfl, h.mail, h.marks⟩, h.parts, h.parts'⟩,
      h.linked⟩

/-- A step with its peers and the step without them. -/
theorem Beside.step (world : World) (op : StoreOp) (hresp : peers.RespectsStep op) :
    Beside peers (op.apply world db) (op.withoutPeers.elim db' (fun op => op.apply world db')) := by
  cases op with
  | write queued =>
    cases hpeer : queued.op.isPeerAdmission with
    | true =>
      simp only [StoreOp.withoutPeers, hpeer, if_true, Option.elim]
      exact h.unseen_left (processQueuedWrite_unseen hpeer hresp h.parts)
    | false =>
      simp only [StoreOp.withoutPeers, hpeer, Bool.false_eq_true, if_false, Option.elim]
      exact h.processQueuedWrite world hpeer hresp
  | batch openError commitError writes => exact h.processBatch world openError commitError hresp
  | move ambient team taskId actor target instant origin =>
    cases origin with
    | peer => exact h
    | «local» | cronRun => exact h.move world ambient team taskId actor target instant _
  | remind order member taskId reminder =>
    simp only [StoreOp.withoutPeers, Option.elim, StoreOp.apply]
    rcases (h.remind reminder order member taskId).cases with ⟨error, hleft, hr⟩ |
      ⟨result, result', hleft, hr, hres⟩
    · rw [hleft, hr]
      exact h
    · rw [hleft, hr]
      exact hres
  | saveRoster roster =>
    exact ⟨⟨⟨h.tasks, h.taskEvents, rfl, h.schedules, h.events, h.intents, h.mail, h.marks⟩, h.parts, h.parts'⟩,
      h.linked⟩
  | cron op => exact h.cron op

end Steps

/-- The run without the admissions of peers. -/
def withoutPeers (ops : List StoreOp) : List StoreOp := ops.filterMap StoreOp.withoutPeers

theorem Beside.run {peers : Foreign} (world : World)
    (hresp : ∀ op ∈ ops, peers.RespectsStep op) {db db' : Db} (h : Beside peers db db') :
    Beside peers (AtmCore.run world ops db) (AtmCore.run world (withoutPeers ops) db') := by
  induction ops generalizing db db' with
  | nil => exact h
  | cons op ops ih =>
    have hstep := h.step world op (hresp op mem_cons_self)
    have hrest := fun other hother => hresp other (mem_cons_of_mem op hother)
    unfold withoutPeers
    rw [filterMap_cons]
    cases hop : op.withoutPeers with
    | none | some =>
      rw [hop] at hstep
      exact ih hrest hstep

/-- The step admits messages of peers and does nothing else. -/
def StoreOp.onlyPeers : StoreOp → Bool
  | .write queued => queued.op.isPeerAdmission
  | .batch _ _ writes => writes.all (fun queued => queued.op.isPeerAdmission)
  | _ => false

theorem StoreOp.sameLedger_of_onlyPeers (world : World) {op : StoreOp} (hpeers : op.onlyPeers = true) (db : Db) :
    SameLedger db (op.apply world db) := by
  cases op with
  | write queued => exact processQueuedWrite_sameLedger_of_peer hpeers
  | batch openError commitError writes =>
    refine processBatch_keeps openError commitError (fun queued hq db' h => ?_) (.refl db)
    exact h.trans (processQueuedWrite_sameLedger_of_peer (List.all_eq_true.mp hpeers queued hq))
  | _ => cases hpeers

theorem run_sameLedger_of_onlyPeers (world : World)
    (hpeers : ∀ op ∈ ops, op.onlyPeers = true) (db : Db) : SameLedger db (run world ops db) := by
  induction ops generalizing db with
  | nil => exact .refl db
  | cons op ops ih =>
    have hop := op.sameLedger_of_onlyPeers world (hpeers op mem_cons_self) db
    exact hop.trans (ih (fun other hother => hpeers other (mem_cons_of_mem op hother)) _)

/-- Peers do not drive the ledger. Whatever their messages say, admitting them changes neither the tasks nor the log;
their moves are refused; and a run in which their keys, ids and parents are not those of the local messages ends
with the ledger of the same run without them. -/
theorem peers_leave_ledger (world : World) (db : Db) (ops : List StoreOp) : ((∀ op ∈ ops, op.onlyPeers = true) →
      (run world ops db).tasks = db.tasks ∧ (run world ops db).taskEvents = db.taskEvents) ∧
    (∀ peers : Foreign, peers.Sorted db → (∀ op ∈ ops, peers.RespectsStep op) →
      (run world ops db).tasks = (run world (withoutPeers ops) db).tasks ∧
        (run world ops db).taskEvents = (run world (withoutPeers ops) db).taskEvents) ∧
    ∀ ambient team taskId actor target instant,
      moveTaskWithOrigin world ambient team taskId actor target instant .peer db =
        (.error (.validation "peer provenance cannot move local tasks"), db) := by
  refine ⟨fun hpeers => ?_, fun peers hsorted hrespects => ?_, fun _ _ _ _ _ _ => rfl⟩
  · have hsame := run_sameLedger_of_onlyPeers world hpeers db
    exact ⟨hsame.tasks, hsame.events⟩
  · have hbeside := hsorted.beside.run world hrespects
    exact ⟨hbeside.tasks, hbeside.taskEvents⟩

section Samples

/-- A message that follows the ninth one. -/
def sampleFollowUp (message : Message) : Message :=
  { message with envelope := { message.envelope with parentMessageId := some ⟨9, by decide⟩ } }

/-- A message of a peer that takes the one place after a message keeps a local assignment from it, though the two
share neither key nor id. -/
theorem peer_follow_up_displaces_assignment :
    let peer := sampleFollowUp (sampleMessage sampleLead sampleMember 1)
    let assignment := sampleFollowUp (sampleTaskMessage sampleLead sampleMember 2 none)
    let ops : List StoreOp := [.write ⟨.upsertMessage peer .peer, .steady⟩, sampleWrite assignment]
    peer.messageKey ≠ assignment.messageKey ∧ peer.envelope.messageId ≠ assignment.envelope.messageId ∧
      (run .accepting ops .empty).tasks.rows.length = 0 ∧
      (run .accepting (withoutPeers ops) .empty).tasks.rows.length = 1 := by
  decide +kernel

/-- The names of the first message are those of the peers. -/
def samplePeers : Foreign where
  key key := decide (key = .fromAtmMessageId (sampleId 1))
  id id := decide (id = sampleId 1)
  parent _ := false

/-- Every fresh id is the thousandth. -/
def sampleAmbient : Ambient := { Ambient.steady with fresh := fun _ => ⟨1000, by decide⟩ }

/-- A peer reports that it starts the task, before and after the assignment. -/
def samplePeerRun : List StoreOp :=
  let started := sampleTaskMessage sampleMember sampleLead 1 (some .start)
  [.write ⟨.upsertMessage started .peer, sampleAmbient⟩,
    .write ⟨.upsertMessage (sampleTaskMessage sampleLead sampleMember 2 none) .local, sampleAmbient⟩,
    .batch none none [⟨.upsertMessage started .peer, sampleAmbient⟩]]

theorem samplePeerRun_respected : ∀ op ∈ samplePeerRun, samplePeers.RespectsStep op := by
  have hpeer : samplePeers.Respects
      ⟨.upsertMessage (sampleTaskMessage sampleMember sampleLead 1 (some .start)) .peer, sampleAmbient⟩ := by
    intro record hrec
    cases hrec
    exact ⟨by decide, by decide, by intro id hid; cases hid⟩
  have hfr : ∀ n, samplePeers.Outside (.ofId (sampleAmbient.fresh n)) := by
    intro n
    show samplePeers.Outside (.ofId ⟨1000, by decide⟩)
    refine ⟨by decide +kernel, ?_, fun _ _ => rfl, by intro id hid; cases hid⟩
    intro id hid
    cases hid
    decide
  intro op hop
  rcases mem_cons.mp hop with rfl | hop
  · exact hpeer
  rcases mem_cons.mp hop with rfl | hop
  · refine ⟨hfr, by decide +kernel, ?_, fun _ _ => rfl, by intro id hid; cases hid⟩
    intro id hid
    cases hid
    decide
  · obtain rfl := mem_singleton.mp hop
    intro queued hq
    obtain rfl := mem_singleton.mp hq
    exact hpeer

theorem peer_start_leaves_ledger : (∀ op ∈ samplePeerRun, samplePeers.RespectsStep op) ∧
      (run .accepting samplePeerRun .empty).tasks = (run .accepting (withoutPeers samplePeerRun) .empty).tasks ∧
      (run .accepting samplePeerRun .empty).taskEvents =
        (run .accepting (withoutPeers samplePeerRun) .empty).taskEvents ∧
      (run .accepting samplePeerRun .empty).tasks.rows.map TaskColumns.state = [.assigned] := by
  have hsorted : samplePeers.Sorted .empty := by
    constructor <;> intro row hrow <;> cases hrow
  obtain ⟨htasks, hevents⟩ :=
    (peers_leave_ledger .accepting .empty samplePeerRun).2.1 samplePeers hsorted samplePeerRun_respected
  exact ⟨samplePeerRun_respected, htasks, hevents, by decide +kernel⟩

end Samples

end AtmCore
