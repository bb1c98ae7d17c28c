import AtmCore.CronHandover
import AtmCore.KeyedLists

/-! The backlog of the outbox. The pending query is global, ordered and cut off, and rows of other schedules, of ended
generations and of unknown handoffs never leave it. A commit reaches a ready intent of its generation just in case
fewer rows than the limit stand before it. -/

namespace AtmCore

open SortLimit List

/-- The rows the pending query counts. -/
def undelivered (intents : List CronIntentRow) : List CronIntentRow :=
  intents.filter (fun row => decide (row.state = .pending) || decide (row.state = .unknown))

/-- The rank of a row among those of its transition: the lifecycle notice comes first. -/
def CronDeliveryIntent.rank (intent : CronDeliveryIntent) : Nat := intent.outputIndex.elim 0 (· + 1)

variable {a b : CronIntentRow}

theorem deliveryOrder_iff : deliveryOrder a b = true ↔ a.intent.scheduleId < b.intent.scheduleId ∨
      (a.intent.scheduleId = b.intent.scheduleId ∧ (a.intent.generation < b.intent.generation ∨
        (a.intent.generation = b.intent.generation ∧ (a.intent.transitionSeq < b.intent.transitionSeq ∨
          (a.intent.transitionSeq = b.intent.transitionSeq ∧ a.intent.rank ≤ b.intent.rank))))) :=
  decide_eq_true_iff

section Backlog

variable {α : Type} {world : World} {ports : CronPorts α} {schedule : CronSchedule} {db : Db} {row : CronIntentRow}

section

variable (hkey : Keyed (db.cronIntents.map CronIntentRow.intent)) (hrow : row ∈ db.cronIntents)
  (hpend : row.state = .pending)
include hkey hrow hpend

theorem mem_pendingDeliveries_iff {limit : Nat} :
    row ∈ pendingDeliveries limit db.cronIntents ↔ ahead deliveryOrder row (undelivered db.cronIntents) < limit := by
  have hmem : row ∈ undelivered db.cronIntents := mem_filter.mpr ⟨hrow, by simp [hpend]⟩
  refine mem_take_mergeSort_iff (fun a b c hab hbc => ?_) (fun a b => ?_) hmem (fun other hother hle hge => ?_) limit
  · rw [deliveryOrder_iff] at *
    omega
  · rw [Bool.or_eq_true, deliveryOrder_iff, deliveryOrder_iff]
    omega
  · rw [deliveryOrder_iff] at hle hge
    have hrank : other.intent.rank = row.intent.rank := by omega
    refine hkey.row_eq hrow (mem_of_mem_filter hother) (sameDelivery_iff.mpr ⟨by omega, by omega, by omega, ?_⟩)
    rw [CronDeliveryIntent.rank, CronDeliveryIntent.rank] at hrank
    cases hidx : other.intent.outputIndex <;> cases hidx' : row.intent.outputIndex <;> simp_all

theorem mem_pendingIntents_iff (howns : schedule.Owns row.intent) :
    row.intent ∈ pendingIntents schedule db.cronIntents ↔
      ahead deliveryOrder row (undelivered db.cronIntents) < pendingLimit := by
  rw [← mem_pendingDeliveries_iff hkey hrow hpend, pendingIntents, List.mem_map]
  constructor
  · rintro ⟨other, hother, hint⟩
    have hmem := mem_of_mem_filter hother
    rw [← hkey.row_eq hrow (mem_of_mem_pendingDeliveries hmem).1 (hint ▸ sameDelivery_refl other.intent)]
    exact hmem
  · intro hmem
    refine ⟨row, mem_filter.mpr ⟨hmem, ?_⟩, rfl⟩
    simp [hpend, howns.1, howns.2]

end

theorem handovers_intent {intents : List CronDeliveryIntent} :
    (handovers world ports schedule intents db).map Handover.intent = intents.filter (sendable schedule) := by
  induction intents generalizing db with
  | nil => rfl
  | cons intent intents ih =>
    rw [handovers, map_append, ih]
    by_cases hsend : sendable schedule intent = true
    · rw [if_pos hsend, filter_cons_of_pos hsend]
      rfl
    · rw [if_neg hsend, filter_cons_of_neg hsend]
      rfl

theorem sendable_of_owns {intent : CronDeliveryIntent} (h : schedule.Owns intent) :
    sendable schedule intent = true := by
  rw [sendable]
  split
  · rfl
  · simp [h.1, h.2]

theorem not_mem_committed (hkey : Keyed (db.cronIntents.map CronIntentRow.intent)) (hrow : row ∈ db.cronIntents)
    {n : Nat} {write : CronTransitionWrite} {fresh : Nat → AtmMessageId} {committed : List CronDeliveryIntent}
    {written : Db}
    (hcommit : commitTransition write fresh (run world (ports.meanwhile n) db) = .ok (.applied committed, written)) :
    row.intent ∉ committed := by
  intro hmem
  obtain ⟨kept, hkept, hsettles⟩ := (run_settles world (ports.meanwhile n) db).exists_of_mem hrow
  have hkey' := commitTransition_keyed world hcommit (run_keyed world (ports.meanwhile n) hkey)
  rw [(commitTransition_applied hcommit).1, map_append] at hkey'
  have hold : row.intent ∈ (run world (ports.meanwhile n) db).cronIntents.map CronIntentRow.intent :=
    hsettles.1 ▸ List.mem_map_of_mem hkept
  have hnew : row.intent ∈ (committed.map (fun intent : CronDeliveryIntent =>
      (⟨intent, .pending, none, none⟩ : CronIntentRow))).map CronIntentRow.intent := by
    rw [List.map_map]
    exact List.mem_map.mpr ⟨row.intent, hmem, rfl⟩
  have hother := (pairwise_append.mp hkey').2.2 row.intent hold row.intent hnew
  rw [sameDelivery_refl] at hother
  cases hother

/-- A successful commit attempts a ready intent of its generation just in case it is near enough to the front. -/
theorem mem_commitHandovers_iff (hkey : Keyed (db.cronIntents.map CronIntentRow.intent)) {n : Nat}
    {transition : CronRunTransition} {outputs : List CronModuleOutput}
    (hcommit : (engineCommit world ports schedule n transition outputs db).1 = .ok true) (hrow : row ∈ db.cronIntents)
    (hpend : row.state = .pending) (howns : schedule.Owns row.intent) :
    row.intent ∈ (commitHandovers world ports schedule n transition outputs db).map Handover.intent ↔
      ahead deliveryOrder row (undelivered db.cronIntents) < pendingLimit := by
  rw [engineCommit] at hcommit
  rw [commitHandovers]
  split at hcommit
  · cases hcommit
  · cases hcommit
  next committed written hrun =>
  rw [hrun]
  rw [handovers_intent, mem_filter, mem_append, ← mem_pendingIntents_iff hkey hrow hpend howns]
  have hnew := not_mem_committed hkey hrow hrun
  simp [sendable_of_owns howns, hnew]

end Backlog

/-- A successful commit hands over every intent of its schedule and generation that was left pending, just in case
before each of them stand fewer than 128 rows that are pending or unknown, of whatever schedule and generation. -/
theorem ready_intents_attempted_iff {α : Type} (world : World) (ports : CronPorts α) (schedule : CronSchedule) (n : Nat)
    (transition : CronRunTransition) (outputs : List CronModuleOutput) (db : Db)
    (hkeyed : Keyed (db.cronIntents.map CronIntentRow.intent))
    (hcommit : (engineCommit world ports schedule n transition outputs db).1 = .ok true) :
    (∀ row ∈ db.cronIntents, row.state = .pending → schedule.Owns row.intent →
      row.intent ∈ (commitHandovers world ports schedule n transition outputs db).map Handover.intent) ↔
    ∀ row ∈ db.cronIntents, row.state = .pending → schedule.Owns row.intent →
      ahead deliveryOrder row (undelivered db.cronIntents) < pendingLimit := by
  refine forall_congr' (fun row => ?_)
  refine forall_congr' (fun hrow => forall_congr' (fun hpending => forall_congr' (fun howns => ?_)))
  exact mem_commitHandovers_iff hkeyed hcommit hrow hpending howns

section Sample

/-- A notice of a stop. -/
def sampleNotice (id seq : Nat) : CronDeliveryIntent :=
  ⟨id, 1, seq, none, sampleTeam, sampleLead, "nightly", .lifecycle (.stopped "until reached")⟩

/-- A store with two schedules, in which `backlog` handoffs of the first are unknown and a notice of the second is
pending. -/
def sampleBacklog (backlog : Nat) : Db :=
  { run .accepting [.cron (.start sampleSchedule), .cron (.start { sampleSchedule with name := "hourly" })] .empty with
    cronIntents :=
      (List.range backlog).map (fun i => ⟨sampleNotice 1 (i + 1), .unknown, none, some "handoff timed out"⟩) ++
        [⟨sampleNotice 2 1, .pending, none, none⟩] }

def sampleSecond : CronSchedule := ⟨2, sampleGeneration, .hook⟩

theorem sampleBacklog_keyed {backlog : Nat} :
    Keyed ((sampleBacklog backlog).cronIntents.map CronIntentRow.intent) := by
  rw [sampleBacklog, map_append, List.map_map]
  refine pairwise_append.mpr ⟨?_, pairwise_singleton _ _, ?_⟩
  · refine pairwise_map.mpr (pairwise_lt_range.imp (fun {i j} hlt => ?_))
    rw [Bool.eq_false_iff]
    intro hsame
    have hseq : i + 1 = j + 1 := (sameDelivery_iff.mp hsame).2.2.1
    omega
  · intro a ha b hb
    obtain ⟨i, -, rfl⟩ := List.mem_map.mp ha
    rw [mem_singleton.mp hb]
    rfl

theorem short_backlog_attempted :
    (engineCommit .accepting sampleQuiet sampleSecond 0 .stopCheckContinues [] (sampleBacklog 3)).1 = .ok true ∧
      ∀ row ∈ (sampleBacklog 3).cronIntents, row.state = .pending → sampleSecond.Owns row.intent →
        row.intent ∈ (commitHandovers .accepting sampleQuiet sampleSecond 0 .stopCheckContinues []
          (sampleBacklog 3)).map Handover.intent := by
  have hcommit : (engineCommit .accepting sampleQuiet sampleSecond 0 .stopCheckContinues [] (sampleBacklog 3)).1 =
      .ok true := by decide +kernel
  refine ⟨hcommit, (ready_intents_attempted_iff .accepting sampleQuiet sampleSecond 0 .stopCheckContinues []
    (sampleBacklog 3) (sampleBacklog_keyed) hcommit).mpr (fun row _ _ _ => ?_)⟩
  have hahead : ahead deliveryOrder row (undelivered (sampleBacklog 3).cronIntents) ≤
      (undelivered (sampleBacklog 3).cronIntents).length := length_filter_le _ _
  have hlength : (undelivered (sampleBacklog 3).cronIntents).length < pendingLimit := by decide +kernel
  omega

/-- Behind 128 unknown handoffs of another schedule a pending notice is not attempted. -/
theorem long_backlog_not_attempted :
    (engineCommit .accepting sampleQuiet sampleSecond 0 .stopCheckContinues [] (sampleBacklog 128)).1 = .ok true ∧
      ⟨sampleNotice 2 1, .pending, none, none⟩ ∈ (sampleBacklog 128).cronIntents ∧
      sampleNotice 2 1 ∉ (commitHandovers .accepting sampleQuiet sampleSecond 0 .stopCheckContinues []
        (sampleBacklog 128)).map Handover.intent := by
  have hcommit : (engineCommit .accepting sampleQuiet sampleSecond 0 .stopCheckContinues [] (sampleBacklog 128)).1 =
      .ok true := by decide +kernel
  have hrow : ⟨sampleNotice 2 1, .pending, none, none⟩ ∈ (sampleBacklog 128).cronIntents :=
    mem_append_right _ mem_cons_self
  refine ⟨hcommit, hrow, fun hmem => ?_⟩
  have hahead := (mem_commitHandovers_iff (sampleBacklog_keyed) hcommit hrow rfl ⟨rfl, rfl⟩).mp hmem
  revert hahead
  decide +kernel

end Sample

end AtmCore
