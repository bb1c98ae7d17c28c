import AtmCore.CronHistory
import AtmCore.CronOutbox

/-! The outbox over runs of the store. A row keeps its intent and its place; its state leaves `pending` once and never
changes again. The intents of a transition are at most one lifecycle notice and the mail of its outputs, numbered
from 0, and the whole table is what the commits of the run returned. -/

namespace AtmCore

open Rows Fallible List

/-- A row keeps its intent, and once it is not pending it does not change. -/
def CronIntentRow.Settles (row row' : CronIntentRow) : Prop :=
  row'.intent = row.intent ∧ (row.state = .pending ∨ row' = row)

theorem CronIntentRow.Settles.refl (row : CronIntentRow) : row.Settles row := ⟨rfl, .inr rfl⟩

theorem CronIntentRow.Settles.trans (row row' row'' : CronIntentRow) (h : row.Settles row') (h' : row'.Settles row'') :
    row.Settles row'' := by
  refine ⟨h'.1.trans h.1, ?_⟩
  rcases h.2 with hpend | rfl
  · exact .inl hpend
  · exact h'.2

/-- What a step of the cron store does to the outbox. -/
inductive OutboxStep (db : Db) (op : CronOp) : Prop where
  | kept (hkept : (op.apply db).cronIntents = db.cronIntents)
  | committed (write : CronTransitionWrite) (fresh : Nat → AtmMessageId) (row : CronScheduleRow)
      (lifecycle mails : List CronDeliveryIntent) (hop : op = .commit write fresh)
      (hrun : commitTransition write fresh db = .ok (.applied (lifecycle ++ mails), op.apply db))
      (hrecords : Records write fresh row db lifecycle mails (op.apply db))
  | marked (id generation seq : Nat) (outputIndex : Option Nat) (receipt : DeliveryReceipt)
      (hop : op = .markDelivered id generation seq outputIndex receipt)

variable {db : Db} {seq : Nat}

theorem CronOp.outboxStep (op : CronOp) : OutboxStep db op := by
  cases op with
  | start schedule =>
    refine .kept ?_
    simp only [CronOp.apply]
    split <;> rfl
  | «end» team phase name instant =>
    refine .kept ?_
    simp only [CronOp.apply]
    split <;> rfl
  | recordRun | recordStop => exact .kept rfl
  | markDelivered id generation seq outputIndex receipt => exact .marked id generation seq outputIndex receipt rfl
  | commit write fresh =>
    cases hrun : commitTransition write fresh db with
    | error error =>
      refine .kept ?_
      simp only [CronOp.apply, hrun]
    | ok result =>
      obtain ⟨result, written⟩ := result
      have happ : (CronOp.commit write fresh).apply db = written := by simp only [CronOp.apply, hrun]
      cases commitTransition_eq_ok_iff.mp hrun with
      | skipped | stale => exact .kept (by rw [happ])
      | @applied row lifecycle mails _ hskip hid hrow hrecords =>
        refine .committed write fresh row lifecycle mails rfl ?_ ?_
        · rw [happ]
          exact hrun
        · rw [happ]
          exact hrecords

variable {id generation : Nat} {receipt : DeliveryReceipt}

theorem markDelivered_settles {outputIndex : Option Nat} {intents : List CronIntentRow} :
    Grown CronIntentRow.Settles intents (markDelivered id generation seq outputIndex receipt intents) := by
  refine Grown.map (fun row => ?_) intents
  split
  · next hmatch =>
    refine ⟨?_, .inl hmatch.2.2.2.2⟩
    cases receipt <;> rfl
  · exact .refl row

/-- What holds of the outbox holds after a step of the store, if commits and receipts keep it. -/
theorem StoreOp.apply_outbox {P : List CronIntentRow → Prop} (world : World) (op : StoreOp) (h : P db.cronIntents)
    (hcommit : ∀ write fresh row lifecycle mails db', op = .cron (.commit write fresh) →
      Records write fresh row db lifecycle mails db' → P db'.cronIntents)
    (hmark : ∀ id generation seq outputIndex receipt,
      op = .cron (.markDelivered id generation seq outputIndex receipt) →
      P (markDelivered id generation seq outputIndex receipt db.cronIntents)) :
    P (op.apply world db).cronIntents := by
  by_cases hop : ∃ cron, op = .cron cron
  · obtain ⟨cron, rfl⟩ := hop
    cases cron.outboxStep with
    | kept hkept => exact hkept.symm ▸ h
    | committed write fresh row lifecycle mails hop hrun hrecords =>
      exact hcommit write fresh row lifecycle mails _ (congrArg _ hop) hrecords
    | marked id generation seq outputIndex receipt hop =>
      subst hop
      exact hmark id generation seq outputIndex receipt rfl
  · rw [(StoreOp.apply_sameCron world (fun cron heq => hop ⟨cron, heq⟩) db).intents]
    exact h

/-- One step of the store settles rows and appends new ones. -/
theorem StoreOp.apply_settles (world : World) (op : StoreOp) (db : Db) :
    Grown CronIntentRow.Settles db.cronIntents (op.apply world db).cronIntents := by
  refine op.apply_outbox world (.refl CronIntentRow.Settles.refl db.cronIntents) ?_
    (fun _ _ _ _ _ _ => markDelivered_settles)
  intro write fresh row lifecycle mails db' _ hrecords
  rw [hrecords.tables.2.1]
  exact .append CronIntentRow.Settles.refl db.cronIntents _

theorem run_settles (world : World) (ops : List StoreOp) (db : Db) :
    Grown CronIntentRow.Settles db.cronIntents (run world ops db).cronIntents := by
  induction ops generalizing db with
  | nil => exact .refl CronIntentRow.Settles.refl db.cronIntents
  | cons op ops ih => exact (op.apply_settles world db).trans CronIntentRow.Settles.trans (ih _)

/-! What was committed. -/

/-- The intents a step returns to its caller. -/
def StoreOp.commits (op : StoreOp) (db : Db) : List CronDeliveryIntent :=
  match op with
  | .cron (.commit transition fresh) =>
    match commitTransition transition fresh db with
    | .ok (.applied intents, _) => intents
    | _ => []
  | _ => []

/-- The intents the commits of a run returned, in order. -/
def committed (world : World) : List StoreOp → Db → List CronDeliveryIntent
  | [], _ => []
  | op :: ops, db => op.commits db ++ committed world ops (op.apply world db)

variable {world : World}

theorem StoreOp.apply_commits (op : StoreOp) : (op.apply world db).cronIntents.map CronIntentRow.intent =
      db.cronIntents.map CronIntentRow.intent ++ op.commits db := by
  by_cases hop : ∃ cron, op = .cron cron
  swap
  · have hsame := StoreOp.apply_sameCron world (fun cron heq => hop ⟨cron, heq⟩) db
    have hnone : op.commits db = [] := by
      cases op with
      | cron cron => exact absurd ⟨cron, rfl⟩ hop
      | _ => rfl
    rw [hsame.intents, hnone, append_nil]
  obtain ⟨cron, rfl⟩ := hop
  have happ : StoreOp.apply world (.cron cron) db = cron.apply db := rfl
  rw [happ]
  cases cron with
  | commit write fresh =>
    simp only [StoreOp.commits, CronOp.apply]
    cases hrun : commitTransition write fresh db with
    | error error => exact (append_nil _).symm
    | ok result =>
      obtain ⟨result, written⟩ := result
      cases commitTransition_eq_ok_iff.mp hrun with
      | skipped | stale => exact (append_nil _).symm
      | applied hskip hid hrow hrecords => exact History.commit_intents hrecords
  | markDelivered id generation seq outputIndex receipt =>
    exact (markDelivered_intents id generation seq outputIndex receipt db.cronIntents).trans (append_nil _).symm
  | start schedule =>
    simp only [CronOp.apply]
    split <;> exact (append_nil _).symm
  | «end» team phase name instant =>
    simp only [CronOp.apply]
    split <;> exact (append_nil _).symm
  | recordRun | recordStop => exact (append_nil _).symm

/-- The outbox holds what the commits returned, and nothing else. -/
theorem run_commits (world : World) (ops : List StoreOp) (db : Db) :
    (run world ops db).cronIntents.map CronIntentRow.intent =
      db.cronIntents.map CronIntentRow.intent ++ committed world ops db := by
  induction ops generalizing db with
  | nil => exact (append_nil _).symm
  | cons op ops ih => rw [run_cons, ih, op.apply_commits, committed, append_assoc]

/-! The numbers of a transition's intents. -/

/-- The intents of one transition. -/
def intentsOf (intents : List CronDeliveryIntent) (id generation seq : Nat) : List CronDeliveryIntent :=
  intents.filter (fun intent => decide (intent.scheduleId = id) && decide (intent.generation = generation) &&
    decide (intent.transitionSeq = seq))

/-- At most one lifecycle notice, and mail numbered from 0. -/
def Numbered (intents : List CronDeliveryIntent) : Prop :=
  ∃ notices mails, notices ≤ 1 ∧ intents.map CronDeliveryIntent.outputIndex =
    List.replicate notices none ++ (List.range mails).map some

theorem numbered_nil : Numbered [] := ⟨0, 0, Nat.zero_le 1, rfl⟩

variable {prior : Option CronFailure}

section Commit

variable {write : CronTransitionWrite} {fresh : Nat → AtmMessageId} {row : CronScheduleRow}
  {lifecycle mails : List CronDeliveryIntent} {db db' : Db}

theorem lifecycleIntents_length
    (h : lifecycleIntents write row seq prior = .ok lifecycle) : lifecycle.length ≤ 1 := by
  have hpays := congrArg List.length (lifecycleIntents_eq_ok h).1
  rw [length_map, length_map] at hpays
  rw [hpays]
  cases write.announces prior <;> simp

theorem Records.numbered (h : Records write fresh row db lifecycle mails db') : Numbered (lifecycle ++ mails) := by
  obtain ⟨prior, -, hlife⟩ := h.notice
  refine ⟨lifecycle.length, write.outputs.length, lifecycleIntents_length hlife, ?_⟩
  have hnone : lifecycle.map CronDeliveryIntent.outputIndex = List.replicate lifecycle.length none := by
    rw [eq_replicate_iff]
    refine ⟨length_map _, fun index hidx => ?_⟩
    obtain ⟨intent, hint, rfl⟩ := List.mem_map.mp hidx
    exact ((lifecycleIntents_eq_ok hlife).2 intent hint).2
  rw [map_append, hnone, (moduleMailIntents_eq_ok h.output).1, range_eq_range']

/-- The intents of a commit are all of its transition, and no other has any of its sequence number. -/
theorem Records.intentsOf_append (h : Records write fresh row db lifecycle mails db') (hhist : History db) :
    intentsOf (db.cronIntents.map CronIntentRow.intent ++ (lifecycle ++ mails)) id generation seq =
      if id = write.id ∧ generation = write.generation.get ∧ seq = write.seq db.cronEvents then lifecycle ++ mails
      else intentsOf (db.cronIntents.map CronIntentRow.intent) id generation seq := by
  rw [intentsOf, filter_append]
  by_cases hkey : id = write.id ∧ generation = write.generation.get ∧ seq = write.seq db.cronEvents
  · obtain ⟨rfl, rfl, rfl⟩ := hkey
    have hold : ∀ intent ∈ db.cronIntents.map CronIntentRow.intent,
        ¬ (intent.scheduleId = write.id ∧ intent.generation = write.generation.get ∧
          intent.transitionSeq = write.seq db.cronEvents) := by
      rintro intent hint ⟨hid, hgen, hseq⟩
      have hle := hhist.owed intent hint
      rw [hid, hgen, hseq, CronTransitionWrite.seq] at hle
      omega
    rw [if_pos ⟨rfl, rfl, rfl⟩, filter_eq_nil_iff.mpr, nil_append, filter_eq_self]
    · intro intent hint
      have howes := h.owes intent hint
      simp [howes.schedule, howes.generation, howes.seq]
    · intro intent hint hmatch
      exact hold intent hint (by simpa [and_assoc] using hmatch)
  · have hnew : (lifecycle ++ mails).filter (fun intent => decide (intent.scheduleId = id) &&
        decide (intent.generation = generation) && decide (intent.transitionSeq = seq)) = [] := by
      rw [filter_eq_nil_iff]
      intro intent hint hmatch
      have howes := h.owes intent hint
      simp only [Bool.and_eq_true, decide_eq_true_eq, howes.schedule, howes.generation, howes.seq] at hmatch
      exact hkey ⟨hmatch.1.1.symm, hmatch.1.2.symm, hmatch.2.symm⟩
    rw [if_neg hkey, hnew, append_nil]
    rfl

end Commit

section

variable (hhist : History db)
  (h : ∀ id generation seq, Numbered (intentsOf (db.cronIntents.map CronIntentRow.intent) id generation seq))
include hhist h

theorem StoreOp.apply_numbered (world : World) (op : StoreOp) (id generation seq : Nat) :
    Numbered (intentsOf ((op.apply world db).cronIntents.map CronIntentRow.intent) id generation seq) := by
  refine op.apply_outbox (P := fun intents => Numbered (intentsOf (intents.map CronIntentRow.intent) id generation seq))
    world (h id generation seq) ?_ ?_
  · intro write fresh row lifecycle mails db' _ hrecords
    rw [History.commit_intents hrecords, hrecords.intentsOf_append hhist]
    split
    · exact hrecords.numbered
    · exact h id generation seq
  · intro id' generation' seq' outputIndex receipt _
    rw [markDelivered_intents]
    exact h id generation seq

theorem run_numbered (world : World) (ops : List StoreOp) (id generation seq : Nat) :
    Numbered (intentsOf ((run world ops db).cronIntents.map CronIntentRow.intent) id generation seq) := by
  induction ops generalizing db with
  | nil => exact h id generation seq
  | cons op ops ih => exact ih (op.apply_history world hhist) (op.apply_numbered hhist h world)

/-! Reading back what was committed. -/

end

/-- The texts of a transition are values of their types. -/
def CronTransitionWrite.Typed (write : CronTransitionWrite) : Prop :=
  ∀ event, lifecycleEvent write.transition = some event → event.Typed

def DeliveryReceipt.Typed : DeliveryReceipt → Prop
  | .unknown retryCause => parseRetryCause retryCause = .ok retryCause
  | _ => True

def StoreOp.Typed : StoreOp → Prop
  | .cron (.commit transition _) => transition.Typed
  | .cron (.markDelivered _ _ _ _ receipt) => receipt.Typed
  | _ => True

section Commit

variable {write : CronTransitionWrite} {fresh : Nat → AtmMessageId} {row : CronScheduleRow}
  {lifecycle mails : List CronDeliveryIntent} {db db' : Db} {seq : Nat}

theorem parseCronName_idem {name parsed : String} (h : parseCronName name = .ok parsed) :
    parseCronName parsed = .ok parsed := by
  obtain rfl := parseCronName_eq_ok h
  exact h

theorem lifecycleIntents_readable (htyped : write.Typed)
    (h : lifecycleIntents write row seq prior = .ok lifecycle) : ∀ intent ∈ lifecycle, intent.Readable := by
  rw [lifecycleIntents] at h
  cases hev : lifecycleEvent write.transition with
  | none =>
    rw [hev] at h
    cases h
    simp
  | some event =>
    rw [hev] at h
    dsimp only at h
    split at h
    · cases h
      simp
    · obtain ⟨name, hname, h⟩ := bind_eq_ok.mp h
      cases h
      intro intent hint
      rw [mem_singleton.mp hint]
      exact ⟨write.generation.valid, parseCronName_idem hname, rfl, htyped event hev⟩

theorem moduleMailIntents_readable {outputs : List CronModuleOutput} {index : Nat}
    (h : moduleMailIntents write row seq fresh index outputs = .ok mails) : ∀ intent ∈ mails, intent.Readable := by
  induction outputs generalizing index mails with
  | nil =>
    cases h
    simp
  | cons output outputs ih =>
    rw [moduleMailIntents] at h
    split at h
    · cases h
    next hbd =>
    obtain ⟨name, hname, h⟩ := bind_eq_ok.mp h
    obtain ⟨rest, hrest, h⟩ := bind_eq_ok.mp h
    cases h
    intro intent hint
    rcases mem_cons.mp hint with rfl | hint
    · exact ⟨write.generation.valid, parseCronName_idem hname, index, rfl, by omega⟩
    · exact ih hrest intent hint

theorem Records.readable (h : Records write fresh row db lifecycle mails db') (htyped : write.Typed) :
    ∀ intent ∈ lifecycle ++ mails, intent.Readable := by
  obtain ⟨prior, -, hlife⟩ := h.notice
  intro intent hint
  rcases mem_append.mp hint with hint | hint
  · exact lifecycleIntents_readable htyped hlife intent hint
  · exact moduleMailIntents_readable h.output intent hint

end Commit

theorem DeliveryReceipt.mark_readable (htyped : receipt.Typed) {row : CronIntentRow}
    (h : row.Readable) : (receipt.mark row).Readable := by
  cases receipt with
  | unknown retryCause => exact ⟨h.intent, fun _ => ⟨retryCause, rfl, htyped⟩⟩
  | accepted | suppressed | recipientUnavailable => exact ⟨h.intent, nofun⟩

theorem StoreOp.apply_intentsReadable {op : StoreOp} (htyped : op.Typed)
    (h : ∀ row ∈ db.cronIntents, row.Readable) : ∀ row ∈ (op.apply world db).cronIntents, row.Readable := by
  refine op.apply_outbox (P := fun intents => ∀ row ∈ intents, row.Readable) world h ?_ ?_
  · intro write fresh row lifecycle mails db' hop hrecords
    subst hop
    rw [hrecords.tables.2.1]
    intro stored hst
    rcases mem_append.mp hst with hst | hst
    · exact h stored hst
    · obtain ⟨intent, hint, rfl⟩ := List.mem_map.mp hst
      exact ⟨hrecords.readable htyped intent hint, nofun⟩
  · intro id generation seq outputIndex receipt hop
    subst hop
    intro row hrow
    obtain ⟨stored, hst, rfl⟩ := List.mem_map.mp hrow
    split
    · exact receipt.mark_readable htyped (h stored hst)
    · exact h stored hst

theorem run_intentsReadable (world : World) {ops : List StoreOp} (htyped : ∀ op ∈ ops, op.Typed)
    (h : ∀ row ∈ db.cronIntents, row.Readable) : ∀ row ∈ (run world ops db).cronIntents, row.Readable := by
  induction ops generalizing db with
  | nil => exact h
  | cons op ops ih =>
    refine ih (fun op' hop' => htyped op' (mem_cons_of_mem op hop')) ?_
    exact StoreOp.apply_intentsReadable (htyped op mem_cons_self) h

end AtmCore
