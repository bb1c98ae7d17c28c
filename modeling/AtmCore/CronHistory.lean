import AtmCore.CronGenerations
import Mathlib.Data.List.Induction

/-! The committed history of a cron generation. Its events are numbered from 1 without a gap, every intent belongs to
an event, and the lifecycle notices are those of the episodes: a fault opens an episode, a reset or a different fault
closes it, and each episode is told of once. The store compares a failure with the last event only; that decides the
episode whenever the last event is a failure or there is none, and any other last event cannot be read. -/

namespace Episodes

open List

variable {φ : Type}

inductive Mark (φ : Type) where
  | fault (f : φ)
  | reset
  | neutral

/-- What a mark does to the open episode. -/
def advance (current : Option φ) : Mark φ → Option φ
  | .fault f => some f
  | .reset => none
  | .neutral => current

/-- The fault whose episode is open after a history. -/
def current (history : List (Mark φ)) : Option φ := history.foldl advance none

/-- The fault occurred, and since then there was neither a reset nor another fault. -/
def Open (history : List (Mark φ)) (f : φ) : Prop :=
  ∃ before since, history = before ++ .fault f :: since ∧ ∀ mark ∈ since, mark = .neutral ∨ mark = .fault f

@[simp] theorem current_nil : current ([] : List (Mark φ)) = none := rfl

theorem current_concat (history : List (Mark φ)) {mark : Mark φ} :
    current (history ++ [mark]) = advance (current history) mark := by
  simp [current]

theorem not_open_nil {f : φ} : ¬ Open [] f := by
  rintro ⟨before, since, heq, -⟩
  cases before <;> cases heq

theorem open_concat_iff (history : List (Mark φ)) {mark : Mark φ} {f : φ} :
    Open (history ++ [mark]) f ↔ mark = .fault f ∨ (mark = .neutral ∧ Open history f) := by
  constructor
  · rintro ⟨before, since, heq, hsince⟩
    rcases eq_nil_or_concat since with rfl | ⟨since', last, rfl⟩
    · exact .inl (append_inj_right' heq rfl |> singleton_inj.mp)
    · rw [concat_eq_append, ← cons_append, ← append_assoc] at heq
      obtain ⟨hhist, hlast⟩ := append_inj' heq rfl
      obtain rfl := singleton_inj.mp hlast
      rcases hsince mark (by simp) with hneutral | hfault
      · exact .inr ⟨hneutral, before, since', hhist, fun m hm => hsince m (by simp [hm])⟩
      · exact .inl hfault
  · rintro (rfl | ⟨rfl, before, since, rfl, hsince⟩)
    · exact ⟨history, [], rfl, by simp⟩
    · refine ⟨before, since ++ [.neutral], by simp, fun mark hmark => ?_⟩
      rcases mem_append.mp hmark with hmark | hmark
      · exact hsince mark hmark
      · exact .inl (mem_singleton.mp hmark)

theorem current_eq_some_iff (history : List (Mark φ)) {f : φ} : current history = some f ↔ Open history f := by
  induction history using List.reverseRecOn with
  | nil => simp [not_open_nil]
  | append_singleton history mark ih =>
    rw [current_concat, open_concat_iff, ← ih]
    cases mark with
    | fault | reset | neutral => simp [advance]

end Episodes

namespace AtmCore

open Rows Episodes List Option

def CronEventRow.failure? (event : CronEventRow) : Option CronFailure :=
  match event.failureKind, event.failureDetail with
  | some kind, some detail => some ⟨kind, event.failureCode, detail⟩
  | _, _ => none

/-- What an event does to the episodes of failures: a success resets them, a stop check that continues and
a stop do not. -/
def CronEventRow.mark (event : CronEventRow) : Mark CronFailure :=
  match event.kind, event.failure? with
  | .success, _ => .reset
  | .failure, some failure => .fault failure
  | _, _ => .neutral

@[simp] theorem event_failure? {write : CronTransitionWrite} {seq : Nat} :
    (write.event seq).failure? = write.transition.failure? := by
  unfold CronEventRow.failure? CronTransitionWrite.event
  cases write.transition.failure? <;> rfl

def noticesOf (intents : List CronDeliveryIntent) (event : CronEventRow) : List CronDeliveryIntent :=
  intents.filter (fun intent => decide (intent.scheduleId = event.scheduleId) &&
    decide (intent.generation = event.generation) && decide (intent.transitionSeq = event.transitionSeq) &&
    intent.outputIndex.isNone)

/-- What the notices of an event say, after the events before it. -/
def Noticed (before : List CronEventRow) (event : CronEventRow) (payloads : List CronIntentPayload) : Prop :=
  match event.kind with
  | .failure => ∃ failure, event.failure? = some failure ∧
      payloads = if current (before.map CronEventRow.mark) = some failure then []
        else [.lifecycle (.error failure)]
  | .stopped => ∃ reason, payloads = [.lifecycle (.stopped reason)]
  | _ => payloads = []

structure History (db : Db) : Prop where
  seqs : ∀ id generation, (cronEventsOf db.cronEvents id generation).map CronEventRow.transitionSeq =
    range' 1 (cronEventsOf db.cronEvents id generation).length
  shaped : ∀ event ∈ db.cronEvents, event.failure?.isSome = true ↔ event.kind = .failure
  owed : ∀ intent ∈ db.cronIntents.map CronIntentRow.intent,
    intent.transitionSeq ≤ lastTransitionSeq db.cronEvents intent.scheduleId intent.generation
  noticed : ∀ id generation before event after,
    cronEventsOf db.cronEvents id generation = before ++ event :: after →
      Noticed before event
        ((noticesOf (db.cronIntents.map CronIntentRow.intent) event).map CronDeliveryIntent.payload)
  leased : ∀ event ∈ db.cronEvents, ∃ lease, leaseOf db.cronSchedules event.scheduleId = some lease ∧
    event.generation ≤ lease.generation

variable {generation id : Nat} {event : CronEventRow} {events : List CronEventRow}

theorem mem_cronEventsOf : event ∈ cronEventsOf events id generation ↔
      event ∈ events ∧ event.scheduleId = id ∧ event.generation = generation := by
  simp [cronEventsOf]

theorem cronEventsOf_concat : cronEventsOf (events ++ [event]) id generation =
      if event.scheduleId = id ∧ event.generation = generation then cronEventsOf events id generation ++ [event]
      else cronEventsOf events id generation := by
  unfold cronEventsOf
  rw [filter_append]
  split
  next h => simp [h]
  next h => simpa using fun heq => not_and.mp h heq

theorem lastTransitionSeq_concat : lastTransitionSeq (events ++ [event]) id generation =
      if event.scheduleId = id ∧ event.generation = generation then
        max (lastTransitionSeq events id generation) event.transitionSeq
      else lastTransitionSeq events id generation := by
  unfold lastTransitionSeq
  rw [cronEventsOf_concat]
  split
  · rw [map_append, foldr_append, foldr_max_init, map_singleton, foldr_cons,
      foldr_nil, Nat.max_zero]
  · rfl

theorem transitionSeq_le_last (h : event ∈ events) :
    event.transitionSeq ≤ lastTransitionSeq events event.scheduleId event.generation :=
  le_foldr_max (List.mem_map_of_mem (mem_cronEventsOf.mpr ⟨h, rfl, rfl⟩))

theorem priorFailure_eq : priorFailure events id generation =
      match lastCronEvent events id generation with
      | none => .ok none
      | some event =>
        match event.failure? with
        | some failure => .ok (some failure)
        | none => .error ((storeQueryFailed
            "failed to read prior cron failure: Invalid column type Null").withCause (.conversion "failure_kind")) := by
  unfold priorFailure CronEventRow.failure?
  cases lastCronEvent events id generation with
  | none => rfl
  | some event =>
    dsimp only
    generalize event.failureKind = kind, event.failureDetail = detail
    cases kind <;> cases detail <;> rfl

namespace History

variable {db : Db}

theorem lastTransitionSeq_eq (h : History db) :
    lastTransitionSeq db.cronEvents id generation = (cronEventsOf db.cronEvents id generation).length := by
  rw [lastTransitionSeq, h.seqs, foldr_max_range']

/-- The event with the greatest sequence number is the last one committed. -/
theorem lastCronEvent_eq (h : History db) (id generation : Nat) :
    lastCronEvent db.cronEvents id generation = (cronEventsOf db.cronEvents id generation).getLast? := by
  have hseqs := h.seqs id generation
  rw [lastCronEvent, h.lastTransitionSeq_eq]
  generalize cronEventsOf db.cronEvents id generation = events at hseqs
  rcases eq_nil_or_concat events with rfl | ⟨init, last, rfl⟩
  · rfl
  rw [concat_eq_append] at hseqs ⊢
  rw [length_append, length_singleton, range'_concat, map_append] at hseqs
  obtain ⟨hinit, hlast⟩ := append_inj' hseqs rfl
  have hseq : last.transitionSeq = init.length + 1 := by
    have := singleton_inj.mp hlast
    omega
  have hnone : init.find? (fun e => decide (e.transitionSeq = init.length + 1)) = none := by
    rw [find?_eq_none]
    intro event hev heq
    have hmem : event.transitionSeq ∈ range' 1 init.length := hinit ▸ List.mem_map_of_mem hev
    have hbd := (mem_range'_1.mp hmem).2
    have hev := of_decide_eq_true heq
    omega
  rw [length_append, length_singleton, find?_append, hnone, none_or,
    getLast?_append, getLast?_singleton, some_or]
  simp [hseq]

/-- A failure that is read is the one whose episode is open. -/
theorem priorFailure_eq_current (h : History db) {prior : Option CronFailure}
    (hprior : priorFailure db.cronEvents id generation = .ok prior) :
    prior = current ((cronEventsOf db.cronEvents id generation).map CronEventRow.mark) := by
  have hlast := h.lastCronEvent_eq id generation
  have hshaped : ∀ event ∈ cronEventsOf db.cronEvents id generation,
      event.failure?.isSome = true ↔ event.kind = .failure :=
    fun event hev => h.shaped event (mem_cronEventsOf.mp hev).1
  rw [priorFailure_eq, hlast] at hprior
  generalize cronEventsOf db.cronEvents id generation = events at hprior hshaped
  rcases eq_nil_or_concat events with rfl | ⟨init, last, rfl⟩
  · cases hprior
    rfl
  rw [concat_eq_append] at hprior hshaped ⊢
  rw [getLast?_append, getLast?_singleton, some_or] at hprior
  cases hfail : last.failure? with
  | none =>
    simp only [hfail] at hprior
    cases hprior
  | some failure =>
    simp only [hfail] at hprior
    cases hprior
    have hkind : last.kind = .failure := (hshaped last (by simp)).mp (by simp [hfail])
    have hmark : last.mark = .fault failure := by simp [CronEventRow.mark, hkind, hfail]
    rw [map_append, map_singleton, current_concat, hmark]
    rfl

/-- Steps that keep events and intents and let every lease evolve keep the history. -/
theorem congr {db' : Db} (h : History db) (hevs : db'.cronEvents = db.cronEvents)
    (hints : db'.cronIntents.map CronIntentRow.intent = db.cronIntents.map CronIntentRow.intent)
    (hstep : ∀ id, Fencing.Step (leaseOf db.cronSchedules id) (leaseOf db'.cronSchedules id)) : History db' where
  seqs := hevs ▸ h.seqs
  shaped := hevs ▸ h.shaped
  owed := by
    rw [hints, hevs]
    exact h.owed
  noticed := by
    rw [hints, hevs]
    exact h.noticed
  leased := by
    intro event hev
    rw [hevs] at hev
    obtain ⟨lease, hlease, hle⟩ := h.leased event hev
    obtain ⟨lease', hlease', hle'⟩ := (hstep event.scheduleId).generation_le hlease
    exact ⟨lease', hlease', hle.trans hle'⟩

section Commit

variable {write : CronTransitionWrite} {fresh : Nat → AtmMessageId} {row : CronScheduleRow}
  {lifecycle mails : List CronDeliveryIntent} {db' : Db} (hrecords : Records write fresh row db lifecycle mails db')
include hrecords

/-- The intents of a commit are not those of an event that was there before. -/
theorem noticesOf_earlier (hev : event ∈ db.cronEvents) : noticesOf (lifecycle ++ mails) event = [] := by
  rw [noticesOf, filter_eq_nil_iff]
  intro intent hint hmatch
  have howes := hrecords.owes intent hint
  simp only [Bool.and_eq_true, decide_eq_true_eq] at hmatch
  obtain ⟨⟨⟨hid, hgen⟩, hseq⟩, -⟩ := hmatch
  have hle := transitionSeq_le_last hev
  rw [← hid, ← hgen, howes.schedule, howes.generation, ← hseq, howes.seq, CronTransitionWrite.seq] at hle
  omega

theorem commit_intents :
    db'.cronIntents.map CronIntentRow.intent = db.cronIntents.map CronIntentRow.intent ++ (lifecycle ++ mails) := by
  rw [hrecords.tables.2.1, map_append, List.map_map]
  exact congrArg _ (List.map_id' _)

variable (h : History db)
include h

/-- The lifecycle intents of a commit are the notices of its event. -/
theorem noticesOf_new :
    noticesOf (db.cronIntents.map CronIntentRow.intent ++ (lifecycle ++ mails))
      (write.event (write.seq db.cronEvents)) = lifecycle := by
  have hold : noticesOf (db.cronIntents.map CronIntentRow.intent) (write.event (write.seq db.cronEvents)) = [] := by
    rw [noticesOf, filter_eq_nil_iff]
    intro intent hint hmatch
    simp only [Bool.and_eq_true, decide_eq_true_eq] at hmatch
    obtain ⟨⟨⟨hid, hgen⟩, hseq⟩, -⟩ := hmatch
    have hle := h.owed intent hint
    rw [hid, hgen, hseq] at hle
    exact absurd hle (Nat.not_succ_le_self _)
  obtain ⟨prior, -, hlife⟩ := hrecords.notice
  have hnew : noticesOf lifecycle (write.event (write.seq db.cronEvents)) = lifecycle := by
    rw [noticesOf, filter_eq_self]
    intro intent hint
    obtain ⟨howes, hidx⟩ := (lifecycleIntents_eq_ok hlife).2 intent hint
    simp [howes.schedule, howes.generation, howes.seq, hidx, CronTransitionWrite.event]
  have hmails : noticesOf mails (write.event (write.seq db.cronEvents)) = [] := by
    rw [noticesOf, filter_eq_nil_iff]
    intro intent hint hmatch
    have hidx : intent.outputIndex ∈ mails.map CronDeliveryIntent.outputIndex := List.mem_map_of_mem hint
    rw [(moduleMailIntents_eq_ok hrecords.output).1] at hidx
    obtain ⟨index, -, hidx⟩ := List.mem_map.mp hidx
    simp [← hidx] at hmatch
  unfold noticesOf at hold hnew hmails ⊢
  rw [filter_append, filter_append, hold, hnew, hmails, nil_append, append_nil]

/-- A commit tells of its transition by the episodes. -/
theorem noticed_new (hskip : write.transition ≠ .skippedInFlight) :
    Noticed (cronEventsOf db.cronEvents write.id write.generation.get) (write.event (write.seq db.cronEvents))
      (lifecycle.map CronDeliveryIntent.payload) := by
  obtain ⟨prior, hprior, hlife⟩ := hrecords.notice
  rw [(lifecycleIntents_eq_ok hlife).1]
  unfold CronTransitionWrite.prior at hprior
  have hkind : (write.event (write.seq db.cronEvents)).kind = write.transition.kind := rfl
  unfold Noticed
  rw [hkind, event_failure?]
  unfold CronTransitionWrite.announces
  cases htra : write.transition with
  | success | stopCheckContinues => rfl
  | stopped reason => exact ⟨reason, rfl⟩
  | skippedInFlight => exact absurd htra hskip
  | failure failure =>
    rw [htra] at hprior
    obtain rfl := h.priorFailure_eq_current hprior
    refine ⟨failure, rfl, ?_⟩
    generalize current ((cronEventsOf db.cronEvents write.id write.generation.get).map CronEventRow.mark) = opened
    by_cases hopened : opened = some failure
    · simp [hopened, CronRunTransition.failure?]
    · simp [hopened, Ne.symm hopened, CronRunTransition.failure?, lifecycleEvent]

theorem commit_seqs (id generation : Nat) : (cronEventsOf db'.cronEvents id generation).map CronEventRow.transitionSeq =
      range' 1 (cronEventsOf db'.cronEvents id generation).length := by
  rw [hrecords.tables.1, cronEventsOf_concat]
  split
  next hkey =>
    obtain ⟨rfl, rfl⟩ := hkey
    rw [map_append, h.seqs, length_append, length_singleton, range'_concat, Nat.one_mul,
      Nat.add_comm 1]
    exact congrArg (fun last => _ ++ [last + 1]) h.lastTransitionSeq_eq
  · exact h.seqs id generation

theorem commit_owed :
    ∀ intent ∈ db'.cronIntents.map CronIntentRow.intent,
      intent.transitionSeq ≤ lastTransitionSeq db'.cronEvents intent.scheduleId intent.generation := by
  intro intent hint
  rw [commit_intents hrecords] at hint
  rw [hrecords.tables.1, lastTransitionSeq_concat]
  rcases mem_append.mp hint with hint | hint
  · have hle := h.owed intent hint
    split
    · exact hle.trans (le_max_left _ _)
    · exact hle
  · have howes := hrecords.owes intent hint
    rw [if_pos ⟨howes.schedule.symm, howes.generation.symm⟩, howes.seq]
    exact le_max_right _ _

theorem commit_noticed (hskip : write.transition ≠ .skippedInFlight) {before after : List CronEventRow}
    (hsplit : cronEventsOf db'.cronEvents id generation = before ++ event :: after) : Noticed before event
      ((noticesOf (db'.cronIntents.map CronIntentRow.intent) event).map CronDeliveryIntent.payload) := by
  rw [commit_intents hrecords]
  rw [hrecords.tables.1, cronEventsOf_concat] at hsplit
  have hearlier : ∀ after', cronEventsOf db.cronEvents id generation = before ++ event :: after' →
      Noticed before event ((noticesOf (db.cronIntents.map CronIntentRow.intent ++ (lifecycle ++ mails))
        event).map CronDeliveryIntent.payload) := by
    intro after' hsplit
    have hmem : event ∈ cronEventsOf db.cronEvents id generation := by simp [hsplit]
    have hnone := noticesOf_earlier hrecords (mem_cronEventsOf.mp hmem).1
    unfold noticesOf at hnone ⊢
    rw [filter_append, hnone, append_nil]
    exact h.noticed id generation before event after' hsplit
  split at hsplit
  · next hkey =>
    -- The event was there before, or it is the new one and nothing comes after it.
    obtain ⟨rfl, rfl⟩ := hkey
    rcases eq_nil_or_concat after with rfl | ⟨after', last, rfl⟩
    · obtain ⟨rfl, hev⟩ := append_inj' hsplit rfl
      obtain rfl := singleton_inj.mp hev
      rw [h.noticesOf_new hrecords]
      exact h.noticed_new hrecords hskip
    · rw [concat_eq_append, ← cons_append, ← append_assoc] at hsplit
      exact hearlier after' (append_inj' hsplit rfl).1
  · exact hearlier after hsplit

theorem commit_leased (hrow : runningAt db.cronSchedules write.id write.generation.get = some row)
    (hev : event ∈ db'.cronEvents) :
    ∃ lease, leaseOf db'.cronSchedules event.scheduleId = some lease ∧ event.generation ≤ lease.generation := by
  obtain ⟨lease, hlease, hle⟩ : ∃ lease, leaseOf db.cronSchedules event.scheduleId = some lease ∧
      event.generation ≤ lease.generation := by
    rw [hrecords.tables.1] at hev
    rcases mem_append.mp hev with hev | hev
    · exact h.leased event hev
    · obtain rfl := mem_singleton.mp hev
      have hgood : ¬ ¬ Fencing.Good (leaseOf db.cronSchedules write.id) write.generation.get := by
        rw [← runningAt_eq_none_iff, hrow]
        exact nofun
      exact ⟨_, not_not.mp hgood, Nat.le_refl _⟩
  have hstep := (applyTransitionOutcome_updates write db.cronSchedules).step event.scheduleId
  obtain ⟨lease', hlease', hle'⟩ := hstep.generation_le hlease
  exact ⟨lease', hrecords.tables.2.2 ▸ hlease', hle.trans hle'⟩

theorem commit (hskip : write.transition ≠ .skippedInFlight)
    (hrow : runningAt db.cronSchedules write.id write.generation.get = some row) : History db' where
  seqs := h.commit_seqs hrecords
  shaped := by
    intro event hev
    rw [hrecords.tables.1] at hev
    rcases mem_append.mp hev with hev | hev
    · exact h.shaped event hev
    · rw [mem_singleton.mp hev, event_failure?]
      show write.transition.failure?.isSome = true ↔ write.transition.kind = .failure
      cases write.transition <;> simp [CronRunTransition.failure?, CronRunTransition.kind]
  owed := h.commit_owed hrecords
  noticed _ _ _ _ _ hsplit := h.commit_noticed hrecords hskip hsplit
  leased _ hev := h.commit_leased hrecords hrow hev

end Commit

end History

theorem markDelivered_intents (id generation seq : Nat) (outputIndex : Option Nat) (receipt : DeliveryReceipt)
    (intents : List CronIntentRow) :
    (markDelivered id generation seq outputIndex receipt intents).map CronIntentRow.intent =
      intents.map CronIntentRow.intent := by
  rw [markDelivered, List.map_map]
  refine map_congr_left (fun row _ => ?_)
  dsimp only [Function.comp]
  split
  · cases receipt <;> rfl
  · rfl

/-- The steps of the cron store beside a commit that is recorded. -/
theorem CronOp.apply_keeps (op : CronOp) {db : Db} : ((op.apply db).cronEvents = db.cronEvents ∧
      (op.apply db).cronIntents.map CronIntentRow.intent = db.cronIntents.map CronIntentRow.intent) ∨
    ∃ write fresh row lifecycle mails, op = .commit write fresh ∧ write.transition ≠ .skippedInFlight ∧
      runningAt db.cronSchedules write.id write.generation.get = some row ∧
      Records write fresh row db lifecycle mails (op.apply db) := by
  cases op with
  | start schedule =>
    simp only [CronOp.apply]
    cases startSchedule schedule db.cronSchedules <;> exact .inl ⟨rfl, rfl⟩
  | «end» team phase name instant =>
    simp only [CronOp.apply]
    cases endSchedules team phase name instant db.cronSchedules <;> exact .inl ⟨rfl, rfl⟩
  | recordRun | recordStop => exact .inl ⟨rfl, rfl⟩
  | markDelivered id generation seq outputIndex receipt =>
    exact .inl ⟨rfl, markDelivered_intents id generation seq outputIndex receipt db.cronIntents⟩
  | commit write fresh =>
    simp only [CronOp.apply]
    cases hrun : commitTransition write fresh db with
    | error error => exact .inl ⟨rfl, rfl⟩
    | ok result =>
      obtain ⟨result, written⟩ := result
      cases commitTransition_eq_ok_iff.mp hrun with
      | skipped | stale => exact .inl ⟨rfl, rfl⟩
      | @applied row lifecycle mails _ hskip hid hrow hrecords =>
        exact .inr ⟨write, fresh, row, lifecycle, mails, rfl, hskip, hrow, hrecords⟩

theorem StoreOp.apply_history (world : World) (op : StoreOp) {db : Db} (h : History db) :
    History (op.apply world db) := by
  have hstep : ∀ id, Fencing.Step (leaseOf db.cronSchedules id) (leaseOf (op.apply world db).cronSchedules id) :=
    fun id => op.apply_step world db id
  by_cases hop : ∃ cron, op = .cron cron
  · obtain ⟨cron, rfl⟩ := hop
    rcases cron.apply_keeps with ⟨hevs, hints⟩ | ⟨write, fresh, row, lifecycle, mails, -, hskip, hrow, hrecords⟩
    · exact h.congr hevs hints hstep
    · exact h.commit hrecords hskip hrow
  · have hsame := StoreOp.apply_sameCron world (fun cron heq => hop ⟨cron, heq⟩) db
    exact h.congr hsame.events (congrArg _ hsame.intents) hstep

theorem history_withoutCron (db : Db) : History db.withoutCron where
  seqs id generation := rfl
  shaped event hev := by cases hev
  owed intent hint := by cases hint
  noticed id generation before event after hsplit := by cases before <;> cases hsplit
  leased event hev := by cases hev

/-- Every state of a run from an empty cron store has such a history. -/
theorem run_history (world : World) (ops : List StoreOp) (db : Db) : History (run world ops db.withoutCron) :=
  run_invariant (fun op _ h => op.apply_history world h) ops (history_withoutCron db)

end AtmCore
