import AtmCore.CronHistory

/-! Which commits of a running generation are applied. Numbers, instants and intents never stand in the way;
a failure whose generation last committed something else does, because the columns of that event are read
as text although they are null. -/

namespace AtmCore

open Rows List Option Table

/-- The transition is a failure, and the last event of its generation is not one. -/
def CronTransitionWrite.followsOther (write : CronTransitionWrite) (events : List CronEventRow) : Bool :=
  decide (write.transition.kind = .failure) &&
    (cronEventsOf events write.id write.generation.get).getLast?.any (fun event => decide (event.kind ≠ .failure))

variable {schedules : Table CronScheduleRow.id}

theorem runningAt_eq_some_iff {id generation : Nat} {row : CronScheduleRow} :
    runningAt schedules id generation = some row ↔ schedules.find? id = some row ∧ runsAt id generation row = true :=
  filter_eq_some_iff

/-- The last outcome after a commit, when the transition has one. -/
theorem applyTransitionOutcome_find? {write : CronTransitionWrite}
    {row : CronScheduleRow} (hrow : runningAt schedules write.id write.generation.get = some row) :
    ∃ row', (applyTransitionOutcome write schedules).find? write.id = some row' ∧
      ∀ outcome, transitionOutcome write.transition = some outcome →
        row'.lastOutcome = some outcome ∧ row'.lastRunAt = some write.instant := by
  obtain ⟨hfind, hruns⟩ := runningAt_eq_some_iff.mp hrow
  unfold applyTransitionOutcome
  cases hout : transitionOutcome write.transition with
  | none => exact ⟨row, hfind, nofun⟩
  | some outcome =>
    dsimp only
    rw [updateRun, find?_mapRows, hfind, map_some, if_pos hruns]
    refine ⟨_, rfl, fun outcome' heq => ?_⟩
    cases heq
    exact ⟨rfl, rfl⟩

theorem sameDelivery_of_index {a b : CronDeliveryIntent} (h : a.outputIndex ≠ b.outputIndex) :
    sameDelivery a b = false := by
  simp [sameDelivery, h]

section Commit

variable {db : Db} {write : CronTransitionWrite} {row : CronScheduleRow} {fresh : Nat → AtmMessageId}

theorem prior_eq_ok_iff (h : History db) :
    (∃ prior, write.prior db.cronEvents = .ok prior) ↔ write.followsOther db.cronEvents = false := by
  unfold CronTransitionWrite.followsOther
  by_cases hkind : write.transition.kind = .failure
  · have hlast := h.lastCronEvent_eq write.id write.generation.get
    rw [write.prior_of_failure _ hkind, priorFailure_eq, hlast]
    cases hev : (cronEventsOf db.cronEvents write.id write.generation.get).getLast? with
    | none => simp
    | some event =>
      have hmem := (mem_cronEventsOf.mp (mem_of_getLast? hev)).1
      have hshaped := h.shaped event hmem
      cases hfail : event.failure? <;> simp_all
  · rw [CronTransitionWrite.prior_of_ne_failure hkind]
    simp [hkind]

theorem insertCronEvent_of_instant
    (hinstant : ∀ event ∈ cronEventsOf db.cronEvents write.id write.generation.get, event.transitionAt ≠ write.instant)
    {seq : Nat} : insertCronEvent (write.event seq) db.cronEvents = .ok (db.cronEvents ++ [write.event seq]) := by
  unfold insertCronEvent
  rw [if_neg]
  simp only [List.any_eq_true, Bool.and_eq_true, decide_eq_true_eq, not_exists, not_and]
  rintro event hev ⟨hid, hgen⟩
  exact hinstant event (mem_cronEventsOf.mpr ⟨hev, hid, hgen⟩)

theorem persistIntents_of_commit (h : History db) {prior : Option CronFailure}
    {lifecycle mails : List CronDeliveryIntent}
    (hlife : lifecycleIntents write row (write.seq db.cronEvents) prior = .ok lifecycle)
    (hmails : moduleMailIntents write row (write.seq db.cronEvents) fresh 0 write.outputs = .ok mails) :
    ∃ stored, persistIntents (lifecycle ++ mails) db.cronIntents = .ok stored := by
  obtain ⟨hpays, hnotice⟩ := lifecycleIntents_eq_ok hlife
  obtain ⟨hindices, howes⟩ := moduleMailIntents_eq_ok hmails
  apply persistIntents_of_fresh
  · intro stored hst intent hint
    have howed := h.owed stored.intent (List.mem_map_of_mem hst)
    have howes : write.Owes (write.seq db.cronEvents) intent := by
      rcases mem_append.mp hint with hint | hint
      · exact (hnotice intent hint).1
      · exact howes intent hint
    by_contra hsame
    simp only [sameDelivery, Bool.not_eq_false, Bool.and_eq_true, decide_eq_true_eq] at hsame
    obtain ⟨⟨⟨hid, hgen⟩, hseq⟩, -⟩ := hsame
    rw [hid, hgen, hseq, howes.schedule, howes.generation, howes.seq, CronTransitionWrite.seq] at howed
    omega
  · rw [pairwise_append]
    refine ⟨?_, ?_, ?_⟩
    · have hlen := congrArg List.length hpays
      rw [length_map, length_map] at hlen
      cases hannounces : write.announces prior with
      | none =>
        rw [hannounces, toList_none, length_nil] at hlen
        rw [length_eq_zero_iff.mp hlen]
        exact List.Pairwise.nil
      | some event =>
        rw [hannounces, toList_some, length_singleton] at hlen
        obtain ⟨notice, rfl⟩ := length_eq_one_iff.mp hlen
        exact pairwise_singleton _ _
    · have hnd : (mails.map CronDeliveryIntent.outputIndex).Nodup := by
        rw [hindices]
        exact (nodup_range' (h := by decide)).map (some_injective _)
      exact (pairwise_map.mp hnd).imp sameDelivery_of_index
    · intro notice hn mail hm
      have hidx : mail.outputIndex ∈ mails.map CronDeliveryIntent.outputIndex := List.mem_map_of_mem hm
      rw [hindices] at hidx
      obtain ⟨index, -, hidx⟩ := List.mem_map.mp hidx
      apply sameDelivery_of_index
      rw [(hnotice notice hn).2, ← hidx]
      intro h
      cases h

/-- A commit of a running generation at a new instant is recorded exactly when the failure before it can
be read. -/
theorem records_iff (h : History db) (hinstant : ∀ event ∈ cronEventsOf db.cronEvents write.id write.generation.get,
      event.transitionAt ≠ write.instant)
    {name : String} (hname : parseCronName row.name = .ok name) (houtputs : write.outputs.length ≤ 2 ^ 16) :
    (∃ lifecycle mails db', Records write fresh row db lifecycle mails db') ↔
      write.followsOther db.cronEvents = false := by
  rw [← prior_eq_ok_iff h]
  constructor
  · rintro ⟨lifecycle, mails, db', hrecords⟩
    obtain ⟨prior, hprior, -⟩ := hrecords.notice
    exact ⟨prior, hprior⟩
  · rintro ⟨prior, hprior⟩
    obtain ⟨lifecycle, hlife⟩ := lifecycleIntents_of_name hname
    obtain ⟨mails, hmails⟩ : ∃ mails, moduleMailIntents write row (write.seq db.cronEvents) fresh 0 write.outputs =
        .ok mails := moduleMailIntents_of_name write _ fresh hname (by omega)
    obtain ⟨stored, hst⟩ := persistIntents_of_commit h hlife hmails
    exact ⟨lifecycle, mails, _, ⟨prior, hprior, hlife⟩, hmails, _, stored,
      insertCronEvent_of_instant hinstant, hst, rfl⟩

end Commit

/-- In every state of a run from an empty cron store, a transition of a running generation at an instant the
generation has not used is applied under the next sequence number exactly when it is not a failure after
an event of another kind. A skipped run is applied without being recorded. -/
theorem commit_applies_iff (world : World) (ops : List StoreOp) (db : Db) (write : CronTransitionWrite)
    (fresh : Nat → AtmMessageId) (row : CronScheduleRow) :
    let reached := run world ops db.withoutCron
    runningAt reached.cronSchedules write.id write.generation.get = some row →
    (∀ event ∈ cronEventsOf reached.cronEvents write.id write.generation.get,
      event.transitionAt ≠ write.instant) →
    (∃ name, parseCronName row.name = .ok name) → write.outputs.length ≤ 2 ^ 16 →
    ((∃ intents db', commitTransition write fresh reached = .ok (.applied intents, db') ∧
      (write.transition ≠ .skippedInFlight → db'.cronEvents = reached.cronEvents ++
          [write.event (lastTransitionSeq reached.cronEvents write.id write.generation.get + 1)] ∧
        db'.cronIntents = reached.cronIntents ++ intents.map (fun intent => ⟨intent, .pending, none, none⟩) ∧
        ∃ row', db'.cronSchedules.find? write.id = some row' ∧
          ∀ outcome, transitionOutcome write.transition = some outcome →
            row'.lastOutcome = some outcome ∧ row'.lastRunAt = some write.instant)) ↔
      write.followsOther reached.cronEvents = false) := by
  rintro reached hrow hinstant ⟨name, hname⟩ houtputs
  have hhistory := run_history world ops db
  by_cases hskip : write.transition = .skippedInFlight
  · have hfollows : write.followsOther reached.cronEvents = false := by
      simp [CronTransitionWrite.followsOther, hskip, CronRunTransition.kind]
    exact ⟨fun _ => hfollows, fun _ => ⟨[], reached, commitTransition_eq_ok_iff.mpr (.skipped hskip),
      fun hnot => absurd hskip hnot⟩⟩
  have hid : write.id < 2 ^ 63 := by
    have hfind := (runningAt_eq_some_iff.mp hrow).1
    rw [← key_of_find? hfind]
    exact run_invariant (P := fun db => ∀ id ∈ db.cronSchedules.rows.map CronScheduleRow.id, id < 2 ^ 63)
      (fun op _ h => op.apply_ids h) ops (fun _ h => by cases h) _ (List.mem_map_of_mem (mem_of_find? hfind))
  rw [← @records_iff reached write row fresh hhistory hinstant name hname houtputs]
  constructor
  · rintro ⟨intents, db', hcommit, -⟩
    cases commitTransition_eq_ok_iff.mp hcommit with
    | skipped hnot => exact absurd hnot hskip
    | applied _ _ hrow' hrecords =>
      rw [hrow] at hrow'
      cases hrow'
      exact ⟨_, _, _, hrecords⟩
  · rintro ⟨lifecycle, mails, db', hrecords⟩
    refine ⟨lifecycle ++ mails, db', commitTransition_eq_ok_iff.mpr (.applied hskip hid hrow hrecords), fun _ => ?_⟩
    obtain ⟨hevents, hintents, hschedules⟩ := hrecords.tables
    refine ⟨hevents, hintents, ?_⟩
    rw [hschedules]
    exact applyTransitionOutcome_find? hrow

section Sample

def sampleSchedule : NewCronSchedule where
  team := sampleTeam
  phase := ⟨"bk"⟩
  name := "nightly"
  cronExpr := "0 * * * *"
  modulePath := "/hooks/cron"
  cwd := "/repo"
  args := []
  timeoutMs := 1000
  jitterS := 0
  custom := []
  stop := .hook
  createdBy := sampleLead
  createdAt := ⟨0⟩

def sampleGeneration : CronGeneration := ⟨1, by decide⟩

/-- A transition of the first generation of the first schedule. -/
def sampleTransition (instant : IsoTimestamp) (transition : CronRunTransition) : CronTransitionWrite where
  id := 1
  generation := sampleGeneration
  instant := instant
  transition := transition
  outputs := []

def sampleTimeout : CronRunTransition := .failure ⟨.timeout, some .hookTimeout, "cron hook runner failed"⟩

def sampleFresh (n : Nat) : AtmMessageId := ⟨n % 2 ^ 128, Nat.mod_lt _ (by decide)⟩

/-- The sample schedule was started and has committed these transitions. -/
def sampleHistory (transitions : List (IsoTimestamp × CronRunTransition)) : List StoreOp :=
  .cron (.start sampleSchedule) ::
    transitions.map (fun (instant, transition) => .cron (.commit (sampleTransition instant transition) sampleFresh))

/-- A failure after the same failure is applied as the second event. -/
theorem second_failure_applies :
    let reached := run .accepting (sampleHistory [(⟨1⟩, sampleTimeout)]) Db.empty.withoutCron
    (runningAt reached.cronSchedules 1 1).isSome = true ∧
      ∃ intents db', commitTransition (sampleTransition ⟨2⟩ sampleTimeout) sampleFresh reached =
        .ok (.applied intents, db') := by
  obtain ⟨row, hrow, hname⟩ : ∃ row, runningAt (run .accepting (sampleHistory [(⟨1⟩, sampleTimeout)])
      Db.empty.withoutCron).cronSchedules 1 1 = some row ∧ row.name = "nightly" :=
    map_eq_some_iff.mp (by decide +kernel)
  obtain ⟨intents, db', hcommit, -⟩ := (commit_applies_iff .accepting (sampleHistory [(⟨1⟩, sampleTimeout)]) Db.empty
    (sampleTransition ⟨2⟩ sampleTimeout) sampleFresh row hrow (by decide +kernel) ⟨"nightly", by rw [hname]; rfl⟩
    (by decide)).mpr (by decide +kernel)
  exact ⟨by decide +kernel, intents, db', hcommit⟩

/-- A failure after a success is refused, although its generation runs and the instant is new. -/
theorem failure_after_success_refused :
    let reached := run .accepting (sampleHistory [(⟨1⟩, .success .ok)]) Db.empty.withoutCron
    (runningAt reached.cronSchedules 1 1).isSome = true ∧
      (cronEventsOf reached.cronEvents 1 1).map CronEventRow.transitionAt = [⟨1⟩] ∧
      (parseCronName sampleSchedule.name).isOk = true ∧
      ((commitTransition (sampleTransition ⟨2⟩ sampleTimeout) sampleFresh reached).isOk = false) := by
  decide +kernel

end Sample

end AtmCore
