import AtmCore.CronStore
import AtmCore.Fallible

/-! What one commit of the cron store can do. A skipped run and a run of a generation that is no longer
active leave the tables alone; any other commit either fails and leaves them alone too, or appends one
event under the next sequence number, writes the outcome to the schedule and persists its intents. -/

namespace AtmCore

open Rows Fallible List

/-- The failure a transition is compared with: only a failure reads one. -/
def CronTransitionWrite.prior (write : CronTransitionWrite) (events : List CronEventRow) :
    Except AtmError (Option CronFailure) :=
  match write.transition.kind with
  | .failure => priorFailure events write.id write.generation.get
  | _ => .ok none

variable {write : CronTransitionWrite} {fresh : Nat → AtmMessageId} {db db' : Db}
  {lifecycle mails : List CronDeliveryIntent} {name : String} {events : List CronEventRow}

theorem CronTransitionWrite.prior_of_ne_failure
    (hkind : write.transition.kind ≠ .failure) : write.prior events = .ok none := by
  unfold CronTransitionWrite.prior
  split
  · contradiction
  · rfl

theorem CronTransitionWrite.prior_of_failure (events : List CronEventRow) (hkind : write.transition.kind = .failure) :
    write.prior events = priorFailure events write.id write.generation.get := by
  unfold CronTransitionWrite.prior
  rw [hkind]

def CronTransitionWrite.seq (write : CronTransitionWrite) (events : List CronEventRow) : Nat :=
  lastTransitionSeq events write.id write.generation.get + 1

/-- The row of the schedule when it runs at exactly this generation. -/
def runningAt (schedules : Table CronScheduleRow.id) (id generation : Nat) : Option CronScheduleRow :=
  (schedules.find? id).filter (runsAt id generation)

/-- What a commit of a run that is current writes. -/
structure Records (write : CronTransitionWrite) (fresh : Nat → AtmMessageId) (row : CronScheduleRow) (db : Db)
    (lifecycle mails : List CronDeliveryIntent) (db' : Db) : Prop where
  notice : ∃ prior, write.prior db.cronEvents = .ok prior ∧
    lifecycleIntents write row (write.seq db.cronEvents) prior = .ok lifecycle
  output : moduleMailIntents write row (write.seq db.cronEvents) fresh 0 write.outputs = .ok mails
  stored : ∃ events stored, insertCronEvent (write.event (write.seq db.cronEvents)) db.cronEvents = .ok events ∧
    persistIntents (lifecycle ++ mails) db.cronIntents = .ok stored ∧
    db' = { db with
      cronSchedules := applyTransitionOutcome write db.cronSchedules
      cronEvents := events
      cronIntents := stored }

inductive Commits (write : CronTransitionWrite) (fresh : Nat → AtmMessageId) (db : Db) :
    CronCommitResult → Db → Prop where
  | skipped (hskip : write.transition = .skippedInFlight) : Commits write fresh db (.applied []) db
  | stale (hskip : write.transition ≠ .skippedInFlight) (hid : write.id < 2 ^ 63)
      (hrow : runningAt db.cronSchedules write.id write.generation.get = none) :
      Commits write fresh db .staleGeneration db
  | applied {row : CronScheduleRow} {lifecycle mails : List CronDeliveryIntent} {db' : Db}
      (hskip : write.transition ≠ .skippedInFlight) (hid : write.id < 2 ^ 63)
      (hrow : runningAt db.cronSchedules write.id write.generation.get = some row)
      (hrecords : Records write fresh row db lifecycle mails db') :
      Commits write fresh db (.applied (lifecycle ++ mails)) db'

/-- The steps of a commit in order, over the row that runs. -/
theorem commitTransition_of_running {row : CronScheduleRow} (hskip : write.transition ≠ .skippedInFlight)
    (hid : write.id < 2 ^ 63) (hrow : runningAt db.cronSchedules write.id write.generation.get = some row) :
    commitTransition write fresh db = (do
      let prior ← write.prior db.cronEvents
      let events ← insertCronEvent (write.event (write.seq db.cronEvents)) db.cronEvents
      let lifecycle ← lifecycleIntents write row (write.seq db.cronEvents) prior
      let mails ← moduleMailIntents write row (write.seq db.cronEvents) fresh 0 write.outputs
      let stored ← persistIntents (lifecycle ++ mails) db.cronIntents
      return (.applied (lifecycle ++ mails), { db with
        cronSchedules := applyTransitionOutcome write db.cronSchedules
        cronEvents := events
        cronIntents := stored })) := by
  unfold commitTransition
  rw [if_neg hskip, if_neg (by omega)]
  unfold runningAt at hrow
  simp only [hrow]
  unfold CronTransitionWrite.prior CronTransitionWrite.seq
  generalize write.transition.kind = kind
  cases kind <;> rfl

theorem commitTransition_eq_ok_iff {result : CronCommitResult} :
    commitTransition write fresh db = .ok (result, db') ↔ Commits write fresh db result db' := by
  by_cases hskip : write.transition = .skippedInFlight
  · rw [commitTransition, if_pos hskip]
    constructor
    · intro h
      cases h
      exact .skipped hskip
    · rintro (_ | _ | _)
      · rfl
      · contradiction
      · contradiction
  by_cases hid : write.id < 2 ^ 63
  swap
  · rw [commitTransition, if_neg hskip, if_pos (by omega)]
    constructor
    · intro h
      cases h
    · rintro (_ | _ | _) <;> contradiction
  cases hrow : runningAt db.cronSchedules write.id write.generation.get with
  | none =>
    have hstale : commitTransition write fresh db = .ok (.staleGeneration, db) := by
      unfold runningAt at hrow
      rw [commitTransition, if_neg hskip, if_neg (by omega), hrow]
    rw [hstale]
    constructor
    · intro h
      cases h
      exact .stale hskip hid hrow
    · rintro (_ | _ | ⟨_, _, hrow', _⟩)
      · contradiction
      · rfl
      · rw [hrow] at hrow'
        cases hrow'
  | some row =>
    rw [commitTransition_of_running hskip hid hrow]
    constructor
    · intro h
      obtain ⟨prior, hprior, h⟩ := bind_eq_ok.mp h
      obtain ⟨events, hevs, h⟩ := bind_eq_ok.mp h
      obtain ⟨lifecycle, hlife, h⟩ := bind_eq_ok.mp h
      obtain ⟨mails, hmails, h⟩ := bind_eq_ok.mp h
      obtain ⟨stored, hst, h⟩ := bind_eq_ok.mp h
      cases h
      exact .applied hskip hid hrow ⟨⟨prior, hprior, hlife⟩, hmails, events, stored, hevs, hst, rfl⟩
    · rintro (_ | ⟨_, _, hrow'⟩ | ⟨_, _, hrow', ⟨⟨prior, hprior, hlife⟩, hmails, events, stored, hevs, hst, rfl⟩⟩)
      · contradiction
      · rw [hrow] at hrow'
        cases hrow'
      · rw [hrow] at hrow'
        cases hrow'
        simp only [hprior, hevs, hlife, hmails, hst, bind_ok]
        rfl

/-- The intent is one of the transition with this sequence number. -/
structure CronTransitionWrite.Owes (write : CronTransitionWrite) (seq : Nat) (intent : CronDeliveryIntent) :
    Prop where
  schedule : intent.scheduleId = write.id
  generation : intent.generation = write.generation.get
  seq : intent.transitionSeq = seq

/-- What the lifecycle notice of a transition says, if it has one. -/
def CronTransitionWrite.announces (write : CronTransitionWrite) (prior : Option CronFailure) :
    Option CronLifecycleEvent :=
  if write.transition.failure?.isSome && decide (write.transition.failure? = prior) then none
  else lifecycleEvent write.transition

variable {prior : Option CronFailure} {outputs : List CronModuleOutput} {index : Nat}
  {intents : List CronDeliveryIntent} {stored : List CronIntentRow}

section Intents

variable {write : CronTransitionWrite} {row : CronScheduleRow} {seq : Nat}

theorem lifecycleIntents_eq_ok (h : lifecycleIntents write row seq prior = .ok lifecycle) :
    lifecycle.map CronDeliveryIntent.payload = (write.announces prior).toList.map .lifecycle ∧
      ∀ intent ∈ lifecycle, write.Owes seq intent ∧ intent.outputIndex = none := by
  unfold lifecycleIntents at h
  unfold CronTransitionWrite.announces
  cases hev : lifecycleEvent write.transition with
  | none =>
    rw [hev] at h
    cases h
    simp
  | some event =>
    rw [hev] at h
    dsimp only at h
    split at h
    next hrepeat =>
      cases h
      simp [hrepeat]
    next hrepeat =>
      obtain ⟨name, -, h⟩ := bind_eq_ok.mp h
      cases h
      rw [if_neg hrepeat]
      refine ⟨rfl, fun intent hint => ?_⟩
      obtain rfl := mem_singleton.mp hint
      exact ⟨⟨rfl, rfl, rfl⟩, rfl⟩

theorem moduleMailIntents_eq_ok (h : moduleMailIntents write row seq fresh index outputs = .ok mails) :
    mails.map CronDeliveryIntent.outputIndex = (range' index outputs.length).map some ∧
      ∀ intent ∈ mails, write.Owes seq intent := by
  induction outputs generalizing index mails with
  | nil =>
    cases h
    simp
  | cons output outputs ih =>
    rw [moduleMailIntents] at h
    split at h
    · cases h
    obtain ⟨name, -, h⟩ := bind_eq_ok.mp h
    obtain ⟨rest, hrest, h⟩ := bind_eq_ok.mp h
    cases h
    obtain ⟨hidx, howes⟩ := ih hrest
    constructor
    · rw [map_cons, hidx, length_cons, range'_succ, map_cons]
    · intro intent hint
      rcases mem_cons.mp hint with rfl | hint
      · exact ⟨rfl, rfl, rfl⟩
      · exact howes intent hint

theorem persistIntents_eq_ok {stored' : List CronIntentRow} (h : persistIntents intents stored = .ok stored') :
    stored' = stored ++ intents.map (fun intent => ⟨intent, .pending, none, none⟩) := by
  induction intents generalizing stored with
  | nil =>
    cases h
    simp
  | cons intent intents ih =>
    rw [persistIntents] at h
    split at h
    · cases h
    · rw [ih h, map_cons, append_assoc, singleton_append]

theorem insertCronEvent_eq_ok {event : CronEventRow} {events' : List CronEventRow}
    (h : insertCronEvent event events = .ok events') : events' = events ++ [event] := by
  unfold insertCronEvent at h
  split at h
  · cases h
  · exact (Except.ok.inj h).symm

theorem Records.tables (h : Records write fresh row db lifecycle mails db') :
    db'.cronEvents = db.cronEvents ++ [write.event (write.seq db.cronEvents)] ∧
      db'.cronIntents = db.cronIntents ++ (lifecycle ++ mails).map (fun intent => ⟨intent, .pending, none, none⟩) ∧
      db'.cronSchedules = applyTransitionOutcome write db.cronSchedules := by
  obtain ⟨events, stored, hevs, hst, rfl⟩ := h.stored
  exact ⟨insertCronEvent_eq_ok hevs, persistIntents_eq_ok hst, rfl⟩

theorem Records.owes (h : Records write fresh row db lifecycle mails db') :
    ∀ intent ∈ lifecycle ++ mails, write.Owes (write.seq db.cronEvents) intent := by
  obtain ⟨prior, -, hlife⟩ := h.notice
  intro intent hint
  rcases mem_append.mp hint with hint | hint
  · exact ((lifecycleIntents_eq_ok hlife).2 intent hint).1
  · exact (moduleMailIntents_eq_ok h.output).2 intent hint

theorem parseCronName_eq_ok {parsed : String} (h : parseCronName name = .ok parsed) : parsed = name := by
  unfold parseCronName at h
  split at h
  · cases h
  · exact (Except.ok.inj h).symm

theorem lifecycleIntents_of_name (hname : parseCronName row.name = .ok name) :
    ∃ lifecycle, lifecycleIntents write row seq prior = .ok lifecycle := by
  unfold lifecycleIntents
  split
  · exact ⟨_, rfl⟩
  split
  · exact ⟨_, rfl⟩
  · rw [hname]
    exact ⟨_, rfl⟩

theorem moduleMailIntents_of_name (write : CronTransitionWrite) (seq : Nat) (fresh : Nat → AtmMessageId)
    (hname : parseCronName row.name = .ok name) (hfits : index + outputs.length ≤ 2 ^ 16) :
    ∃ mails, moduleMailIntents write row seq fresh index outputs = .ok mails := by
  induction outputs generalizing index with
  | nil => exact ⟨[], rfl⟩
  | cons output outputs ih =>
    rw [length_cons] at hfits
    obtain ⟨mails, hmails⟩ := @ih (index + 1) (by omega)
    rw [moduleMailIntents, if_neg (by omega), hname, bind_ok, hmails]
    exact ⟨_, rfl⟩

/-- Intents with keys of their own are all persisted. -/
theorem persistIntents_of_fresh (hst : ∀ row ∈ stored, ∀ intent ∈ intents, sameDelivery row.intent intent = false)
    (hpairs : intents.Pairwise (fun a b => sameDelivery a b = false)) :
    ∃ stored', persistIntents intents stored = .ok stored' := by
  induction intents generalizing stored with
  | nil => exact ⟨stored, rfl⟩
  | cons intent intents ih =>
    obtain ⟨hfirst, hpairs⟩ := pairwise_cons.mp hpairs
    rw [persistIntents, if_neg (by
      simp only [List.any_eq_true, not_exists, not_and, Bool.not_eq_true]
      exact fun row hrow => hst row hrow intent mem_cons_self)]
    refine ih (fun row hrow other hother => ?_) hpairs
    rcases mem_append.mp hrow with hrow | hrow
    · exact hst row hrow other (mem_cons_of_mem _ hother)
    · rw [mem_singleton.mp hrow]
      exact hfirst other hother

end Intents

end AtmCore
