import AtmCore.CronGenerations

/-! The cron fence over whole runs of the store. A write with the permit of a generation that is not running changes
no table, alone or inside a batch, whether or not its message key is stored already. A generation that was running and
is not running any more never runs again. -/

namespace AtmCore

open Rows Fallible List

/-- The schedule and the generation a write is permitted for. -/
def MessageWriteOrigin.permit : MessageWriteOrigin → Option (Nat × CronGeneration)
  | .cronRun id generation => some (id, generation)
  | _ => none

def WriteOp.permit : WriteOp → Option (Nat × CronGeneration)
  | applyReadDisplayState _ _ _ provenance => provenance.permit
  | deleteMessage _ provenance => provenance.permit
  | upsertMessage _ provenance => provenance.permit
  | acknowledge _ _ provenance => provenance.permit
  | taskMove _ _ _ _ _ provenance => provenance.permit
  | admitTemplateMessage admission => admission.provenance.permit
  | _ => none

def StoreOp.permit : StoreOp → Option (Nat × CronGeneration)
  | write queued => queued.op.permit
  | move _ _ _ _ _ _ origin => origin.permit
  | _ => none

/-- The schedule of the permit does not run at its generation. -/
def stalePermit (schedules : Table CronScheduleRow.id) (permit : Option (Nat × CronGeneration)) : Bool :=
  permit.any (fun (id, generation) => (runningAt schedules id generation.get).isNone)

variable {schedules : Table CronScheduleRow.id}

theorem validateCronGenerationFence_of_stale {provenance : MessageWriteOrigin}
    (hstale : stalePermit schedules provenance.permit = true) :
    ∃ fault, validateCronGenerationFence provenance schedules = .error fault ∧ fault.unaudited := by
  cases provenance with
  | «local» => cases hstale
  | peer => cases hstale
  | cronRun id generation =>
    have hrow : runningAt schedules id generation.get = none := by
      simpa [stalePermit, MessageWriteOrigin.permit] using hstale
    have hfence : (schedules.find? id).any
        (fun row => decide (row.generation = generation.get) && row.active) = false := by
      unfold runningAt at hrow
      cases hfind : schedules.find? id with
      | none => rfl
      | some row =>
        have hid := Table.key_of_find? hfind
        simpa [hfind, Option.filter_some, runsAt, hid] using hrow
    unfold validateCronGenerationFence
    dsimp only
    split
    · exact ⟨_, rfl, rfl⟩
    · rw [if_neg (Bool.eq_false_iff.mp hfence)]
      exact ⟨_, rfl, rfl⟩

variable {world : World} {db : Db}

/-- A write with a stale permit stops at the fence. A template admission is checked before that. -/
theorem execute_of_stale {ambient : Ambient} {op : WriteOp} (hop : ∀ admission, op ≠ .admitTemplateMessage admission)
    (hstale : stalePermit db.cronSchedules op.permit = true) :
    ∃ fault, execute world ambient op db = .error fault ∧ fault.unaudited := by
  cases op with
  | applyReadDisplayState | deleteMessage | upsertMessage | acknowledge | taskMove =>
    -- each of these meets the fence first
    obtain ⟨fault, hfault, huna⟩ := validateCronGenerationFence_of_stale hstale
    exact ⟨fault, by simp only [execute, executeReadDisplayState, executeDeleteMessage, upsertMessage,
      executeUpsertMessage, admitMessage, executeAcknowledgement, executeTaskMove, hfault, bind_error], huna⟩
  | admitTemplateMessage admission => exact absurd rfl (hop admission)
  | _ => cases hstale

/-- A write whose permit is stale changes nothing, and its refusal is not audited. -/
theorem processQueuedWrite_of_stale (world : World) {queued : QueuedWrite}
    (hstale : stalePermit db.cronSchedules queued.op.permit = true) : (processQueuedWrite world queued db).2 = db := by
  obtain ⟨op, ambient⟩ := queued
  by_cases hop : ∃ admission, op = .admitTemplateMessage admission
  · obtain ⟨admission, rfl⟩ := hop
    obtain ⟨fault, hfault, -⟩ := validateCronGenerationFence_of_stale hstale
    have hrun : ∃ fault, execute world ambient (.admitTemplateMessage admission) db = .error fault := by
      simp only [execute, executeAdmitTemplateMessage, upsertMessage, executeUpsertMessage, admitMessage, hfault]
      cases admission.validate world <;> exact ⟨_, rfl⟩
    obtain ⟨fault, hrun⟩ := hrun
    simp only [processQueuedWrite, hrun]
    cases fault with
    | panic => rfl
    | err error =>
      -- The audit of an admission from a template has no subject.
      have haudit : appendRejectedTaskEvent ambient (.admitTemplateMessage admission) error db = .ok (none, db) := by
        unfold appendRejectedTaskEvent
        split <;> rfl
      simp only [haudit]
  · obtain ⟨fault, hrun, huna⟩ := execute_of_stale (fun admission heq => hop ⟨admission, heq⟩) hstale
    exact processQueuedWrite_of_unaudited hrun huna

theorem StoreOp.apply_of_stale {op : StoreOp}
    (hstale : stalePermit db.cronSchedules op.permit = true) : op.apply world db = db := by
  cases op with
  | write queued => exact processQueuedWrite_of_stale world hstale
  | move ambient team taskId actor target instant origin =>
    cases origin with
    | peer => rfl
    | «local» => cases hstale
    | cronRun id generation =>
      exact @processQueuedWrite_of_stale db world
        ⟨.taskMove team taskId actor target instant (.cronRun id generation), ambient⟩ hstale
  | batch | remind | saveRoster | cron => cases hstale

variable {writes : List QueuedWrite}

/-- The writes of a queue with a stale permit can be taken out of it. -/
theorem runSingly_filter_stale (hdb : db.cronSchedules = schedules) :
    (Batching.runSingly (processQueuedWrite world) writes db).2 = (Batching.runSingly (processQueuedWrite world)
        (writes.filter (fun queued => !stalePermit schedules queued.op.permit)) db).2 := by
  induction writes generalizing db with
  | nil => rfl
  | cons queued writes ih =>
    cases hstale : stalePermit schedules queued.op.permit with
    | true =>
      rw [filter_cons_of_neg (by simp [hstale]), ← ih hdb]
      have hsame := processQueuedWrite_of_stale world (hdb.symm ▸ hstale)
      show (Batching.runSingly _ writes (processQueuedWrite world queued db).2).2 = _
      rw [hsame]
    | false =>
      rw [filter_cons_of_pos (by simp [hstale])]
      exact ih ((processQueuedWrite_beside world queued db).schedules.trans hdb)

theorem run_evolves (world : World) (ops : List StoreOp) (db : Db) (id : Nat) :
    Fencing.Evolves (leaseOf db.cronSchedules id) (leaseOf (run world ops db).cronSchedules id) := by
  induction ops generalizing db with
  | nil => exact .refl
  | cons op ops ih => exact .head (op.apply_step world db id) (ih _)

theorem StoreOp.apply_slots (world : World) (op : StoreOp)
    (hslots : (db.cronSchedules.rows.map CronScheduleRow.slot).Nodup) :
    ((op.apply world db).cronSchedules.rows.map CronScheduleRow.slot).Nodup := by
  rcases op.apply_schedules world db with hupdates | ⟨schedule, started, -, hstart⟩
  · exact hupdates.slots ▸ hslots
  · exact (startSchedule_eq_ok hstart).slots hslots

theorem run_slots {ops : List StoreOp} :
    ((run world ops db.withoutCron).cronSchedules.rows.map CronScheduleRow.slot).Nodup :=
  run_invariant (P := fun db => (db.cronSchedules.rows.map CronScheduleRow.slot).Nodup)
    (fun op _ h => op.apply_slots world h) ops nodup_nil

/-- A restart raises the generation of an ended row by one; nothing else changes a generation, and nothing
else makes a row active. -/
theorem StoreOp.apply_row (op : StoreOp)
    (hslots : (db.cronSchedules.rows.map CronScheduleRow.slot).Nodup) {row : CronScheduleRow}
    (hrow : row ∈ db.cronSchedules.rows) :
    ∃ row', (op.apply world db).cronSchedules.find? row.id = some row' ∧ row'.slot = row.slot ∧
      (Restarts op db.cronSchedules row.slot →
        row.active = false ∧ row'.active = true ∧ row'.generation = row.generation + 1) ∧
      (¬ Restarts op db.cronSchedules row.slot →
        row'.generation = row.generation ∧ (row'.active = true → row.active = true)) := by
  by_cases hrestarts : ∃ schedule started, op = .cron (.start schedule) ∧
      startSchedule schedule db.cronSchedules = .ok (started, (op.apply world db).cronSchedules)
  · obtain ⟨schedule, started, rfl, hstart⟩ := hrestarts
    have hafter := (startSchedule_eq_ok hstart).row hslots hrow
    split at hafter
    next hslot =>
      refine ⟨_, hafter.2, hslot, fun _ => ⟨hafter.1, rfl, rfl⟩, fun hnot => absurd ?_ hnot⟩
      exact ⟨schedule, _, rfl, hslot, hstart⟩
    next hslot =>
      refine ⟨row, hafter, rfl, ?_, fun _ => ⟨rfl, fun h => h⟩⟩
      rintro ⟨other, result, heq, hother, -⟩
      cases heq
      exact absurd hother hslot
  · have hupdates := (op.apply_schedules world db).resolve_right hrestarts
    have hrel := hupdates.find? row.id
    rw [Table.find?_key hrow] at hrel
    generalize hfind : (op.apply world db).cronSchedules.find? row.id = found at hrel
    obtain ⟨hkept⟩ := hrel
    refine ⟨_, rfl, hkept.slot, ?_, fun _ => ⟨hkept.generation, hkept.active⟩⟩
    rintro ⟨schedule, ⟨started, schedules'⟩, rfl, -, hstart⟩
    refine absurd ⟨schedule, started, rfl, ?_⟩ hrestarts
    simp only [StoreOp.apply, CronOp.apply, hstart]

theorem permits_are_fencing_tokens (world : World) (ops : List StoreOp) (db : Db) :
    let reached := run world ops db.withoutCron
    (∀ (op : StoreOp) id generation, op.permit = some (id, generation) →
      runningAt reached.cronSchedules id generation.get = none → op.apply world reached = reached) ∧
    (∀ openError commitError writes, (StoreOp.batch openError commitError writes).apply world reached =
        (StoreOp.batch openError commitError
          (writes.filter (fun queued => !stalePermit reached.cronSchedules queued.op.permit))).apply world reached) ∧
    (reached.cronSchedules.rows.map CronScheduleRow.slot).Nodup ∧
    (∀ (op : StoreOp), ∀ row ∈ reached.cronSchedules.rows,
      ∃ row', (op.apply world reached).cronSchedules.find? row.id = some row' ∧ row'.slot = row.slot ∧
        (Restarts op reached.cronSchedules row.slot →
          row.active = false ∧ row'.active = true ∧ row'.generation = row.generation + 1) ∧
        (¬ Restarts op reached.cronSchedules row.slot →
          row'.generation = row.generation ∧ (row'.active = true → row.active = true))) ∧
    (∀ id (generation : CronGeneration) later latest, runningAt reached.cronSchedules id generation.get ≠ none →
      runningAt (run world later reached).cronSchedules id generation.get = none →
        let latest := run world latest (run world later reached)
        runningAt latest.cronSchedules id generation.get = none ∧
          ∀ op : StoreOp, op.permit = some (id, generation) → op.apply world latest = latest) := by
  intro reached
  have hfence : ∀ (op : StoreOp) id (generation : CronGeneration) db, op.permit = some (id, generation) →
      runningAt db.cronSchedules id generation.get = none → op.apply world db = db := by
    intro op id generation db hpermit hstale
    apply StoreOp.apply_of_stale
    simp [stalePermit, hpermit, hstale]
  refine ⟨fun op id generation => hfence op id generation reached,
    fun openError commitError writes => by
      simp only [StoreOp.apply, processBatch_snd]
      rw [runSingly_filter_stale rfl],
    run_slots, fun op row hrow => op.apply_row (run_slots) hrow, ?_⟩
  intro id generation later latest hrunning hended
  have hnever : runningAt (run world latest (run world later reached)).cronSchedules id generation.get = none := by
    rw [Ne, runningAt_eq_none_iff, not_not] at hrunning
    rw [runningAt_eq_none_iff] at hended ⊢
    exact (run_evolves world later reached id).not_good_again (run_evolves world latest _ id) hrunning hended
  exact ⟨hnever, fun op hpermit => hfence op id generation _ hpermit hnever⟩

end AtmCore
