import AtmCore.FencingTokens
import AtmCore.StoreRuns

/-! Generations of cron schedules as fencing tokens. A row of `cron_schedule` is a lease on its slot: `start` opens it
again under the next generation, and everything else keeps its generation and can only end it. The permit of a cron
run is the token of a generation, and the fence in front of every write asks whether the token is good. -/

namespace AtmCore

open Rows Fallible List Option Table

def CronScheduleRow.lease (row : CronScheduleRow) : Fencing.Lease := ⟨row.generation, row.active⟩

def leaseOf (schedules : Table CronScheduleRow.id) (id : Nat) : Option Fencing.Lease :=
  (schedules.find? id).map CronScheduleRow.lease

theorem runningAt_eq_none_iff (schedules : Table CronScheduleRow.id) (id generation : Nat) :
    runningAt schedules id generation = none ↔ ¬ Fencing.Good (leaseOf schedules id) generation := by
  unfold runningAt leaseOf Fencing.Good
  cases hrow : schedules.find? id with
  | none => simp
  | some row =>
    have hid := key_of_find? hrow
    simp [filter_some, runsAt, hid, CronScheduleRow.lease]

/-- The slot a request to start a schedule names. -/
def NewCronSchedule.slot (schedule : NewCronSchedule) : TeamName × PhaseId × String :=
  (schedule.team, schedule.phase, schedule.name)

/-- What every update of a row beside a restart keeps. -/
structure Kept (row row' : CronScheduleRow) : Prop where
  id : row'.id = row.id
  slot : row'.slot = row.slot
  generation : row'.generation = row.generation
  active : row'.active = true → row.active = true

theorem Kept.refl (row : CronScheduleRow) : Kept row row := ⟨rfl, rfl, rfl, fun h => h⟩

/-- Every row of the table is kept, in its place. -/
def Updates (schedules schedules' : Table CronScheduleRow.id) : Prop :=
  List.Forall₂ Kept schedules.rows schedules'.rows

theorem Updates.refl (schedules : Table CronScheduleRow.id) : Updates schedules schedules :=
  List.forall₂_same.mpr (fun row _ => .refl row)

theorem updates_of_rows {schedules schedules' : Table CronScheduleRow.id} {f : CronScheduleRow → CronScheduleRow}
    (hrows : schedules'.rows = schedules.rows.map f) (hkept : ∀ row, Kept row (f row)) :
    Updates schedules schedules' := by
  rw [Updates, hrows, List.forall₂_map_right_iff]
  exact List.forall₂_same.mpr (fun row _ => hkept row)

theorem updates_of_run {schedules schedules' : Table CronScheduleRow.id} {id generation : Nat}
    {set : CronScheduleRow → CronScheduleRow}
    (hrows : schedules'.rows = schedules.rows.map (fun row => if runsAt id generation row then set row else row))
    (hkept : ∀ row, Kept row (set row)) : Updates schedules schedules' := by
  refine updates_of_rows hrows (fun row => ?_)
  split
  · exact hkept row
  · exact .refl row

theorem applyTransitionOutcome_updates (write : CronTransitionWrite) (schedules : Table CronScheduleRow.id) :
    Updates schedules (applyTransitionOutcome write schedules) := by
  unfold applyTransitionOutcome
  split
  · exact .refl schedules
  · refine updates_of_run rfl (fun row => ⟨rfl, rfl, rfl, fun h => ?_⟩)
    split at h
    · cases h
    · exact h

/-- What a successful start does: a new slot gets a row at generation 1, and the slot of a row that has
ended gets the next generation in place. -/
inductive Starts (schedule : NewCronSchedule) (schedules : Table CronScheduleRow.id) :
    CronScheduleRow → Table CronScheduleRow.id → Prop where
  | inserted {id : Nat} {schedules' : Table CronScheduleRow.id}
      (hslot : ∀ row ∈ schedules.rows, row.slot ≠ schedule.slot) (hid : schedules.find? id = none)
      (hbound : id < 2 ^ 63)
      (hrows : schedules'.rows = schedules.rows ++ [schedule.fill id 1]) :
      Starts schedule schedules (schedule.fill id 1) schedules'
  | restarted {row : CronScheduleRow} (hrow : row ∈ schedules.rows) (hslot : row.slot = schedule.slot)
      (hended : row.active = false) :
      Starts schedule schedules (schedule.fill row.id (row.generation + 1))
        (schedules.mapRows
          (fun other => if other.id = row.id then schedule.fill other.id (other.generation + 1) else other)
          (fun other => by split <;> rfl))

theorem decodeGeneration_eq_ok {row row' : CronScheduleRow} (h : decodeGeneration row = .ok row') : row' = row := by
  unfold decodeGeneration at h
  split at h
  · exact (Except.ok.inj h).symm
  · cases h

theorem insertSchedule_eq_ok {schedule : NewCronSchedule} {schedules schedules' : Table CronScheduleRow.id}
    {id : Nat} (h : insertSchedule schedule schedules = .ok (id, schedules')) :
    schedules.find? id = none ∧ id < 2 ^ 63 ∧ schedules'.rows = schedules.rows ++ [schedule.fill id 1] := by
  unfold insertSchedule at h
  dsimp only at h
  split at h
  · cases h
  split at h
  · cases h
  next hbd =>
  split at h
  next inserted hins =>
    cases h
    obtain ⟨hid, hrows⟩ := (insertNew_eq_some_iff _ _).mp hins
    exact ⟨hid, Nat.lt_of_not_le hbd, hrows⟩
  · cases h

theorem readStarted_eq_ok {schedules schedules' : Table CronScheduleRow.id} {id : Nat}
    {started : CronScheduleRow} (h : readStarted id schedules = .ok (started, schedules')) :
    schedules.find? id = some started ∧ schedules' = schedules := by
  unfold readStarted at h
  cases hfind : schedules.find? id with
  | none =>
    rw [hfind] at h
    cases h
  | some row =>
    rw [hfind] at h
    obtain ⟨decoded, hdec, h⟩ := bind_eq_ok.mp h
    cases h
    exact ⟨congrArg some (decodeGeneration_eq_ok hdec).symm, rfl⟩

theorem startSchedule_eq_ok {schedule : NewCronSchedule} {schedules schedules' : Table CronScheduleRow.id}
    {started : CronScheduleRow} (h : startSchedule schedule schedules = .ok (started, schedules')) :
    Starts schedule schedules started schedules' := by
  unfold startSchedule at h
  cases hslot : schedules.rows.find?
      (fun row => decide (row.slot = (schedule.team, schedule.phase, schedule.name))) with
  | none =>
    rw [hslot] at h
    obtain ⟨⟨id, written⟩, hwr, h⟩ := bind_eq_ok.mp h
    obtain ⟨hfind, rfl⟩ := readStarted_eq_ok h
    obtain ⟨hid, hbd, hrows⟩ := insertSchedule_eq_ok hwr
    rw [find?_of_rows_append hrows, if_pos (show (schedule.fill id 1).id = id from rfl)] at hfind
    cases hfind
    refine .inserted (fun row hrow heq => ?_) hid hbd hrows
    exact find?_eq_none.mp hslot row hrow (decide_eq_true heq)
  | some row =>
    have hmem := mem_of_find?_eq_some hslot
    have heq : row.slot = schedule.slot := by simpa [NewCronSchedule.slot] using find?_some hslot
    rw [hslot] at h
    dsimp only at h
    split at h
    · cases h
    next hend =>
    obtain ⟨⟨id, written⟩, hwr, h⟩ := bind_eq_ok.mp h
    obtain ⟨hfind, rfl⟩ := readStarted_eq_ok h
    unfold restartSchedule at hwr
    split at hwr
    · cases hwr
    cases hwr
    rw [find?_mapRows, find?_key hmem, map_some, if_pos rfl] at hfind
    cases hfind
    exact .restarted hmem heq (Bool.eq_false_iff.mpr hend)

/-- The step of the store is a start that succeeds on the slot. -/
def Restarts (op : StoreOp) (schedules : Table CronScheduleRow.id) (slot : TeamName × PhaseId × String) : Prop :=
  ∃ schedule result, op = .cron (.start schedule) ∧ schedule.slot = slot ∧
    startSchedule schedule schedules = .ok result

section Steps

variable {schedules schedules' : Table CronScheduleRow.id} {schedule : NewCronSchedule} {started : CronScheduleRow}

theorem Updates.slots (h : Updates schedules schedules') :
    schedules'.rows.map CronScheduleRow.slot = schedules.rows.map CronScheduleRow.slot := by
  unfold Updates at h
  generalize schedules.rows = rows, schedules'.rows = rows' at h
  induction h with
  | nil => rfl
  | cons hkept _ ih => rw [map_cons, map_cons, ih, hkept.slot]

theorem Updates.find? (h : Updates schedules schedules') (id : Nat) :
    Option.Rel Kept (schedules.find? id) (schedules'.find? id) := by
  unfold Updates at h
  unfold Table.find?
  generalize schedules.rows = rows, schedules'.rows = rows' at h
  induction h with
  | nil => exact .none
  | @cons row row' rows rows' hkept _ ih =>
    rw [find?_cons, find?_cons, hkept.id]
    split
    · exact .some hkept
    · exact ih

theorem Kept.step {row row' : CronScheduleRow} (h : Kept row row') :
    Fencing.Step (some row.lease) (some row'.lease) := by
  unfold CronScheduleRow.lease
  rw [h.generation]
  exact .kept row.generation h.active

theorem Updates.step (h : Updates schedules schedules') (id : Nat) :
    Fencing.Step (leaseOf schedules id) (leaseOf schedules' id) := by
  have hrow := h.find? id
  unfold leaseOf
  generalize schedules.find? id = row, schedules'.find? id = row' at hrow
  cases hrow with
  | none => exact .absent
  | some hkept => exact hkept.step

section

variable (h : Starts schedule schedules started schedules')
include h

theorem Starts.slots (hslots : (schedules.rows.map CronScheduleRow.slot).Nodup) :
    (schedules'.rows.map CronScheduleRow.slot).Nodup := by
  cases h with
  | inserted hslot hid hbd hrows =>
    rw [hrows, map_append, nodup_append]
    refine ⟨hslots, nodup_singleton _, fun a ha b hb => ?_⟩
    obtain ⟨row, hrow, rfl⟩ := List.mem_map.mp ha
    rw [mem_singleton.mp hb]
    exact hslot row hrow
  | @restarted row hrow hslot hend =>
    rw [mapRows_rows, List.map_map]
    refine (map_congr_left (fun other hother => ?_)).symm ▸ hslots
    dsimp only [Function.comp]
    split
    next hid =>
      rw [schedules.eq_of_key_eq hother hrow hid, hslot]
      rfl
    · rfl

/-- The row of the slot gets the next generation, every other row stays. -/
theorem Starts.row
    (hslots : (schedules.rows.map CronScheduleRow.slot).Nodup) {row : CronScheduleRow} (hrow : row ∈ schedules.rows) :
    if schedule.slot = row.slot then
      row.active = false ∧ schedules'.find? row.id = some (schedule.fill row.id (row.generation + 1))
    else schedules'.find? row.id = some row := by
  cases h with
  | @inserted id schedules' hslot hid hbd hrows =>
    rw [if_neg (fun heq => hslot row hrow heq.symm), find?_of_rows_append hrows,
      if_neg (fun heq => (Table.find?_eq_none_iff _).mp hid row hrow heq.symm), find?_key hrow]
  | @restarted ended hend hslot hact =>
    rw [find?_mapRows, find?_key hrow, map_some]
    by_cases heq : schedule.slot = row.slot
    · obtain rfl := inj_on_of_nodup_map hslots hrow hend (heq.symm.trans hslot.symm)
      rw [if_pos heq, if_pos rfl]
      exact ⟨hact, rfl⟩
    · rw [if_neg heq, if_neg]
      intro hid
      apply heq
      rw [schedules.eq_of_key_eq hrow hend hid, hslot]

theorem Starts.step (id : Nat) : Fencing.Step (leaseOf schedules id) (leaseOf schedules' id) := by
  unfold leaseOf
  cases h with
  | @inserted new schedules' hslot hid hbd hrows =>
    rw [find?_of_rows_append hrows]
    split
    next heq =>
      obtain rfl : new = id := heq
      rw [hid]
      exact .opened
    · exact .refl _
  | @restarted row hrow hslot hend =>
    rw [find?_mapRows]
    cases hfind : schedules.find? id with
    | none => exact .absent
    | some other =>
      dsimp only [map_some]
      split
      next hid =>
        obtain rfl := schedules.eq_of_key_eq (mem_of_find? hfind) hrow hid
        have hlease : other.lease = ⟨other.generation, false⟩ := congrArg _ hend
        rw [hlease]
        exact .reopened other.generation
      · exact .refl _

end

theorem Updates.ids (h : Updates schedules schedules') :
    schedules'.rows.map CronScheduleRow.id = schedules.rows.map CronScheduleRow.id := by
  unfold Updates at h
  generalize schedules.rows = rows, schedules'.rows = rows' at h
  induction h with
  | nil => rfl
  | cons hkept _ ih => rw [map_cons, map_cons, ih, hkept.id]

theorem Starts.ids (h : Starts schedule schedules started schedules') {id : Nat}
    (hid : id ∈ schedules'.rows.map CronScheduleRow.id) :
    id ∈ schedules.rows.map CronScheduleRow.id ∨ id < 2 ^ 63 := by
  cases h with
  | inserted hslot hfree hbd hrows =>
    rw [hrows, map_append] at hid
    rcases mem_append.mp hid with hid | hid
    · exact .inl hid
    · rw [mem_singleton.mp hid]
      exact .inr hbd
  | restarted hrow hslot hend =>
    rw [mapRows_keys] at hid
    exact .inl hid

end Steps

theorem StoreOp.apply_sameCron (world : World) {op : StoreOp} (hop : ∀ cron, op ≠ .cron cron) (db : Db) :
    SameCron db (op.apply world db) := by
  cases op with
  | write queued => exact (processQueuedWrite_beside world queued db).toSameCron
  | batch openError commitError writes =>
    refine processBatch_keeps openError commitError (fun queued _ db' h => ?_) (.refl db)
    exact h.trans (processQueuedWrite_beside world queued db').toSameCron
  | move ambient team taskId actor target instant origin =>
    cases origin with
    | peer => exact .refl db
    | «local» => exact (processQueuedWrite_beside world ⟨.taskMove _ _ _ _ _ _, ambient⟩ db).toSameCron
    | cronRun id generation =>
      exact (processQueuedWrite_beside world ⟨.taskMove _ _ _ _ _ _, ambient⟩ db).toSameCron
  | remind order member taskId reminder =>
    obtain ⟨tasks, events, heq⟩ := StoreOp.remind_writesLedger
    exact heq ▸ ⟨rfl, rfl, rfl⟩
  | saveRoster roster => exact ⟨rfl, rfl, rfl⟩
  | cron cron => exact absurd rfl (hop cron)

/-- A step of the store keeps every schedule row, or it is a start that succeeds. -/
theorem CronOp.apply_schedules (op : CronOp) (db : Db) :
    Updates db.cronSchedules (op.apply db).cronSchedules ∨ ∃ schedule started, op = .start schedule ∧
        startSchedule schedule db.cronSchedules = .ok (started, (op.apply db).cronSchedules) := by
  cases op with
  | start schedule =>
    simp only [CronOp.apply]
    cases hstart : startSchedule schedule db.cronSchedules with
    | error error => exact .inl (.refl _)
    | ok result => exact .inr ⟨schedule, result.1, rfl, hstart⟩
  | «end» team phase name instant =>
    refine .inl ?_
    simp only [CronOp.apply, endSchedules]
    cases (db.cronSchedules.rows.filter (endsSchedule team phase name)).mapM decodeGeneration with
    | error error => exact .refl _
    | ok selected =>
      refine updates_of_rows (by rfl) (fun row => ?_)
      split
      · exact ⟨rfl, rfl, rfl, fun h => by cases h⟩
      · exact .refl row
  | recordRun id generation instant outcome =>
    refine .inl ?_
    simp only [CronOp.apply, AtmCore.recordRun]
    split
    · exact .refl _
    · exact updates_of_run rfl (fun row => ⟨rfl, rfl, rfl, fun h => h⟩)
  | recordStop id generation instant reason =>
    refine .inl ?_
    simp only [CronOp.apply, AtmCore.recordStop]
    split
    · exact .refl _
    · exact updates_of_run rfl (fun row => ⟨rfl, rfl, rfl, fun h => by cases h⟩)
  | markDelivered id generation seq outputIndex receipt => exact .inl (.refl _)
  | commit write fresh =>
    refine .inl ?_
    simp only [CronOp.apply]
    cases hrun : commitTransition write fresh db with
    | error error => exact .refl _
    | ok result =>
      obtain ⟨result, written⟩ := result
      cases commitTransition_eq_ok_iff.mp hrun with
      | skipped | stale => exact .refl _
      | applied _ _ _ hrecords =>
        obtain ⟨events, stored, -, -, rfl⟩ := hrecords.stored
        exact applyTransitionOutcome_updates write db.cronSchedules

theorem StoreOp.apply_schedules (world : World) (op : StoreOp) (db : Db) :
    Updates db.cronSchedules (op.apply world db).cronSchedules ∨ ∃ schedule started, op = .cron (.start schedule) ∧
        startSchedule schedule db.cronSchedules = .ok (started, (op.apply world db).cronSchedules) := by
  by_cases hop : ∃ cron, op = .cron cron
  · obtain ⟨cron, rfl⟩ := hop
    rcases cron.apply_schedules db with hupdates | ⟨schedule, started, rfl, hstart⟩
    · exact .inl hupdates
    · exact .inr ⟨schedule, started, rfl, hstart⟩
  · have hsame := StoreOp.apply_sameCron world (fun cron heq => hop ⟨cron, heq⟩) db
    rw [hsame.schedules]
    exact .inl (.refl _)

theorem StoreOp.apply_step (world : World) (op : StoreOp) (db : Db) (id : Nat) :
    Fencing.Step (leaseOf db.cronSchedules id) (leaseOf (op.apply world db).cronSchedules id) := by
  rcases op.apply_schedules world db with hupdates | ⟨schedule, started, -, hstart⟩
  · exact hupdates.step id
  · exact (startSchedule_eq_ok hstart).step id

/-- Row ids stay in the range of the integers of the store. -/
theorem StoreOp.apply_ids {world : World} (op : StoreOp) {db : Db}
    (hids : ∀ id ∈ db.cronSchedules.rows.map CronScheduleRow.id, id < 2 ^ 63) :
    ∀ id ∈ (op.apply world db).cronSchedules.rows.map CronScheduleRow.id, id < 2 ^ 63 := by
  intro id hid
  rcases op.apply_schedules world db with hupdates | ⟨schedule, started, -, hstart⟩
  · exact hids id (hupdates.ids ▸ hid)
  · rcases (startSchedule_eq_ok hstart).ids hid with hid | hbd
    · exact hids id hid
    · exact hbd

end AtmCore
