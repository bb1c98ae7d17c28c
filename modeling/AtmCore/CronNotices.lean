import AtmCore.CronEngine
import AtmCore.CronHistory

/-! Failure notices over sequences of cron runs. The steps are runs of the engine for any schedule, records of
the worker, and anything else the store can do in between; all of them are runs of the store, so the
history of every generation holds. -/

namespace AtmCore

open Rows Episodes List

inductive CronStep (α : Type) where
  | store (op : StoreOp)
  | runOne (ports : CronPorts α) (schedule : CronSchedule)
  | record (ports : CronPorts α) (schedule : CronSchedule) (outcome : CronRunOutcome)

variable {α : Type}

def CronStep.apply (world : World) (step : CronStep α) (db : Db) : Db :=
  match step with
  | .store op => op.apply world db
  | .runOne ports schedule => (AtmCore.runOne world ports schedule db).2
  | .record ports schedule outcome => recordOutcome world ports schedule outcome db

def runSteps (world : World) (steps : List (CronStep α)) (db : Db) : Db :=
  steps.foldl (fun db step => step.apply world db) db

theorem CronStep.apply_runs (world : World) (step : CronStep α) (db : Db) : Runs world db (step.apply world db) := by
  cases step with
  | store op => exact ⟨[op], rfl⟩
  | runOne ports schedule => exact runOne_runs world ports schedule db
  | record ports schedule outcome => exact engineCommit_runs world ports schedule 0 _ _ db

theorem runSteps_runs (world : World) (steps : List (CronStep α)) (db : Db) :
    Runs world db (runSteps world steps db) := by
  induction steps generalizing db with
  | nil => exact .refl world db
  | cons step steps ih => exact (step.apply_runs world db).trans (ih _)

theorem runSteps_history (world : World) (steps : List (CronStep α)) (db : Db) :
    History (runSteps world steps db.withoutCron) := by
  obtain ⟨ops, hops⟩ := runSteps_runs world steps db.withoutCron
  rw [← hops]
  exact run_history world ops db

/-- What the store has been told of, in order: the lifecycle notices without the mail of modules. -/
def lifecycleNotices (db : Db) : List CronDeliveryIntent :=
  (db.cronIntents.map CronIntentRow.intent).filter (fun intent => intent.outputIndex.isNone)

/-- The committed events of a generation as marks of episodes. -/
def marksOf (db : Db) (id generation : Nat) : List (Mark CronFailure) :=
  (cronEventsOf db.cronEvents id generation).map CronEventRow.mark

variable {write : CronTransitionWrite} {row : CronScheduleRow} {fresh : Nat → AtmMessageId}

theorem moduleMails_notLifecycle {seq index : Nat} {outputs : List CronModuleOutput} {mails : List CronDeliveryIntent}
    (h : moduleMailIntents write row seq fresh index outputs = .ok mails) :
    mails.filter (fun intent => intent.outputIndex.isNone) = [] := by
  rw [filter_eq_nil_iff]
  intro intent hint hnone
  have hidx : intent.outputIndex ∈ mails.map CronDeliveryIntent.outputIndex := List.mem_map_of_mem hint
  rw [(moduleMailIntents_eq_ok h).1] at hidx
  obtain ⟨index, -, hidx⟩ := List.mem_map.mp hidx
  simp [← hidx] at hnone

namespace History

variable {db : Db}

/-- A failure whose episode is open is told of by no commit, whether the commit is recorded or not. -/
theorem commit_of_open (h : History db) (fresh : Nat → AtmMessageId) {failure : CronFailure}
    (hfail : write.transition = .failure failure) (hopen : Open (marksOf db write.id write.generation.get) failure) :
    lifecycleNotices ((CronOp.commit write fresh).apply db) = lifecycleNotices db := by
  unfold lifecycleNotices
  rcases (CronOp.commit write fresh).apply_keeps with
    ⟨-, hints⟩ | ⟨write', fresh', row, lifecycle, mails, heq, -, -, hrecords⟩
  · rw [hints]
  · cases heq
    obtain ⟨prior, hprior, hlife⟩ := hrecords.notice
    have hkind : write.transition.kind = .failure := by rw [hfail]; rfl
    rw [write.prior_of_failure _ hkind] at hprior
    have hcur : prior = some failure := (h.priorFailure_eq_current hprior).trans ((current_eq_some_iff _).mpr hopen)
    have hnone : lifecycle = [] := by
      have hpays := (lifecycleIntents_eq_ok hlife).1
      simpa [CronTransitionWrite.announces, hfail, CronRunTransition.failure?, hcur] using hpays
    rw [commit_intents hrecords, hnone, nil_append, filter_append,
      moduleMails_notLifecycle hrecords.output, append_nil]

/-- A generation that was just started has no committed event. -/
theorem events_of_start (h : History db) {schedule : NewCronSchedule}
    {schedules' : Table CronScheduleRow.id} (hstart : startSchedule schedule db.cronSchedules = .ok (row, schedules')) :
    cronEventsOf db.cronEvents row.id row.generation = [] := by
  rw [eq_nil_iff_forall_not_mem]
  intro event hev
  obtain ⟨hmem, hid, hgen⟩ := mem_cronEventsOf.mp hev
  obtain ⟨lease, hlease, hle⟩ := h.leased event hmem
  rw [hid, hgen] at *
  cases startSchedule_eq_ok hstart with
  | @inserted id _ hslot hfree hbd hrows =>
    simp [leaseOf, NewCronSchedule.fill, hfree] at hlease
  | @restarted ended hend hslot hact =>
    have hfind : leaseOf db.cronSchedules ended.id = some ended.lease := by
      rw [leaseOf, Table.find?_key hend, Option.map_some]
    obtain rfl := Option.some.inj (hlease.symm.trans hfind)
    exact absurd hle (Nat.not_succ_le_self _)

theorem notices_of_stop {reason : String}
    (hstop : write.transition = .stopped reason) {intents : List CronDeliveryIntent} {db' : Db}
    (hcommit : commitTransition write fresh db = .ok (.applied intents, db')) :
    (intents.filter (fun intent => intent.outputIndex.isNone)).map CronDeliveryIntent.payload =
      [.lifecycle (.stopped reason)] := by
  cases commitTransition_eq_ok_iff.mp hcommit with
  | skipped hskip =>
    rw [hstop] at hskip
    cases hskip
  | @applied row lifecycle mails _ hskip hid hrow hrecords =>
    obtain ⟨prior, -, hlife⟩ := hrecords.notice
    obtain ⟨hpays, hindices⟩ := lifecycleIntents_eq_ok hlife
    have hself : lifecycle.filter (fun intent => intent.outputIndex.isNone) = lifecycle :=
      filter_eq_self.mpr (fun intent hint => by rw [(hindices intent hint).2]; rfl)
    rw [filter_append, moduleMails_notLifecycle hrecords.output, append_nil, hself, hpays]
    simp [CronTransitionWrite.announces, hstop, CronRunTransition.failure?, lifecycleEvent]

end History

/-- In every state that runs of the engine and other writers reach, each committed failure has the notice of
its failure exactly when its episode was not open before it, and each committed stop has one notice.
A commit of a failure whose episode is open adds no notice, whatever was committed in between, a started
generation begins without events, and a commit of a stop adds its notice. -/
theorem notices_follow_episodes (world : World) (steps : List (CronStep α)) (db : Db) :
    let reached := runSteps world steps db.withoutCron
    let noticed := fun event =>
      (noticesOf (reached.cronIntents.map CronIntentRow.intent) event).map CronDeliveryIntent.payload
    (∀ id generation before event after, cronEventsOf reached.cronEvents id generation = before ++ event :: after →
      (event.kind = .failure → ∃ failure, event.failure? = some failure ∧
        (noticed event = [.lifecycle (.error failure)] ↔ ¬ Open (before.map CronEventRow.mark) failure) ∧
        (noticed event = [] ↔ Open (before.map CronEventRow.mark) failure)) ∧
      (event.kind = .stopped → ∃ reason, noticed event = [.lifecycle (.stopped reason)])) ∧
    (∀ write fresh failure, write.transition = .failure failure →
      Open (marksOf reached write.id write.generation.get) failure →
        lifecycleNotices ((CronOp.commit write fresh).apply reached) = lifecycleNotices reached) ∧
    (∀ schedule row schedules', startSchedule schedule reached.cronSchedules = .ok (row, schedules') →
      marksOf reached row.id row.generation = []) ∧
    (∀ write fresh reason intents db', write.transition = .stopped reason →
      commitTransition write fresh reached = .ok (.applied intents, db') →
        (intents.filter (fun intent => intent.outputIndex.isNone)).map CronDeliveryIntent.payload =
          [.lifecycle (.stopped reason)]) := by
  intro reached noticed
  have h : History reached := runSteps_history world steps db
  refine ⟨fun id generation before event after hsplit => ⟨fun hkind => ?_, fun hkind => ?_⟩,
    fun write fresh failure hfailure hopen => h.commit_of_open fresh hfailure hopen,
    fun schedule row schedules' hstart => congrArg _ (h.events_of_start hstart),
    fun write fresh reason intents db' hstopped hcommit => History.notices_of_stop hstopped hcommit⟩
  · have hnoticed := h.noticed id generation before event after hsplit
    unfold Noticed at hnoticed
    rw [hkind] at hnoticed
    obtain ⟨failure, hfailure, hpayloads⟩ := hnoticed
    refine ⟨failure, hfailure, ?_⟩
    rw [← current_eq_some_iff, show noticed event = _ from hpayloads]
    split
    next hopen => simp [hopen]
    next hopen => simp [hopen]
  · have hnoticed := h.noticed id generation before event after hsplit
    unfold Noticed at hnoticed
    rw [hkind] at hnoticed
    exact hnoticed

end AtmCore
