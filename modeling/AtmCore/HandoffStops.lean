import AtmCore.HandoffRuns

/-! How the handoff becomes unavailable. The worker gives up a transition that the writer refuses until the deadline,
for whatever reason, and the supervisor then stops for good. As long as no other write takes a message or the permit
away from a transition in the buffer, what is given up is a transition that the writer could have applied. -/

namespace AtmCore

open Rows Fallible List Option

/-- The messages of the transition are stored in its mailbox, and its write permit is current. -/
def ReadDisplayTransition.current (transition : ReadDisplayTransition) (db : Db) : Bool :=
  transition.messageIds.all (fun key =>
    (db.mailMessages.find? (transition.scope.team, transition.scope.agent, key)).isSome &&
    (db.messageStates.find? (transition.scope.team, transition.scope.agent, key)).any
      (fun row => decide (row.deletedAt = none))) &&
  (validateCronGenerationFence transition.origin db.cronSchedules).toBool

/-- A reader pushes what is current, and another write leaves what is in the buffer current. -/
def HandoffStep.Meets (world : World) (handoff : StateHandoff) : HandoffStep → Prop
  | .push _ transition => transition.current handoff.db = true
  | .other step => ∀ item ∈ handoff.queue, item.transition.current handoff.db = true →
      item.transition.current (step.apply world handoff.db) = true
  | _ => True

def HandoffMeets (world : World) : List HandoffStep → StateHandoff → Prop
  | [], _ => True
  | step :: steps, handoff => step.Meets world handoff ∧ HandoffMeets world steps (step.apply world handoff)

/-- The worker tries to hand over the front of the buffer, with no success since it took it. -/
def Trying (front : Accepted) (retryDeadline : Nat) (handoff : StateHandoff) : Prop :=
  handoff.queue.head? = some front ∧ ∃ before since during, handoff.log = before ++ .taken front since :: during ∧
    retryDeadline = since + handoff.config.handoffRetryDeadline ∧ ∀ item, .confirmed item ∉ during

/-- The front of the buffer was refused for the whole of the retry deadline. -/
def RefusedThroughout (front : Accepted) (handoff : StateHandoff) : Prop :=
  handoff.queue.head? = some front ∧ ∃ before since during instant,
    handoff.log = before ++ .taken front since :: during ∧
    .reported front instant ∈ during ∧ since + handoff.config.handoffRetryDeadline ≤ instant ∧
    ∀ item, .confirmed item ∉ during

def WorkerPhase.Tries (handoff : StateHandoff) : WorkerPhase → Prop
  | .sending front retryDeadline | .sleeping front retryDeadline => Trying front retryDeadline handoff
  | .awaiting front retryDeadline _ => Trying front retryDeadline handoff
  | .returned => ∃ front, RefusedThroughout front handoff
  | _ => True

structure StopsRightly (handoff : StateHandoff) : Prop where
  tries : handoff.worker.Tries handoff
  gone : handoff.state = .unavailable → handoff.worker = .gone
  reason : handoff.state = .unavailable → handoff.config.supervisorMaxRestarts < handoff.restartCount ∨
    ∃ front, RefusedThroughout front handoff

variable {result : Except AtmError Unit}

section Current

variable {transition other : ReadDisplayTransition} {ambient : Ambient} {db db' : Db} {world : World}

theorem markMessagesRead_live {mailbox : MailboxScope} {updatedAt nextDue : IsoTimestamp}
    {keys : List MessageKey} {states states' : Table MessageStateRow.key}
    (h : markMessagesRead mailbox updatedAt nextDue keys states = .ok states') {key : MailKey} :
    (states'.find? key).any (fun row => decide (row.deletedAt = none)) =
      (states.find? key).any (fun row => decide (row.deletedAt = none)) := by
  induction keys generalizing states with
  | nil =>
    cases h
    rfl
  | cons first keys ih =>
    rw [markMessagesRead] at h
    split at h
    · rw [ih h, markMessageRead, Table.find?_mapRows]
      cases states.find? key with
      | none => rfl
      | some row =>
        rw [map_some, any_some, any_some]
        split <;> rfl
    · cases h

theorem current_of_applied (h : transition.execute ambient db = .ok db') :
    other.current db' = other.current db := by
  rw [ReadDisplayTransition.execute, executeReadDisplayState.eq_def] at h
  obtain ⟨_, -, h⟩ := bind_eq_ok.mp h
  obtain ⟨states, hstates, h⟩ := bind_eq_ok.mp h
  cases h
  rw [ReadDisplayTransition.current, ReadDisplayTransition.current]
  congr 2
  funext key
  rw [markMessagesRead_live hstates]

theorem current_of_outcome {failure : Option AtmError}
    (h : StateHandoff.outcome world ambient failure transition db = (result, db')) :
    other.current db' = other.current db := by
  cases result with
  | ok => exact current_of_applied (outcome_ok h)
  | error error => rw [outcome_error h]

/-- What is in the buffer stays current by a step that meets the condition. -/
theorem HandoffStep.Meets.keeps {handoff : StateHandoff} {step : HandoffStep}
    (hmeets : step.Meets world handoff) (h : ∀ item ∈ handoff.queue, item.transition.current handoff.db = true) :
    ∀ item ∈ (step.apply world handoff).queue, item.transition.current (step.apply world handoff).db = true := by
  have hrep : ∀ (now : Nat) (front : Accepted) (retryDeadline : Nat) (lane : List (Accepted × Bool)) (item : Accepted),
      item ∈ (StateHandoff.report now front retryDeadline { handoff with lane := lane }).queue →
      item.transition.current (StateHandoff.report now front retryDeadline { handoff with lane := lane }).db =
        true := by
    intro now front retryDeadline lane
    unfold StateHandoff.report
    split <;> exact h
  cases step with
  | push observed transition =>
    simp only [HandoffStep.apply, StateHandoff.tryPush]
    split
    · exact h
    · split
      · exact h
      · intro item hitem
        rcases mem_append.mp hitem with hitem | hitem
        · exact h item hitem
        · obtain rfl := mem_singleton.mp hitem
          exact hmeets
  | take now =>
    simp only [HandoffStep.apply, StateHandoff.takeFront]
    split <;> exact h
  | submit now refused =>
    simp only [HandoffStep.apply, StateHandoff.submit]
    split
    · split
      · exact hrep _ _ _ handoff.lane
      · exact h
    · exact h
  | write ambient failure =>
    simp only [HandoffStep.apply, StateHandoff.write]
    split
    · exact h
    · intro item hitem
      exact (current_of_outcome Prod.mk.eta.symm).trans (h item hitem)
  | receive now lost =>
    simp only [HandoffStep.apply, StateHandoff.receive]
    split
    · exact fun item hitem => h item (mem_of_mem_tail hitem)
    · exact hrep _ _ _ handoff.lane
    · split
      · exact hrep _ _ _ handoff.abandon
      · exact h
    · exact h
  | wake =>
    simp only [HandoffStep.apply, StateHandoff.wake]
    split <;> exact h
  | crash =>
    simp only [HandoffStep.apply, StateHandoff.crash]
    split <;> exact h
  | supervise =>
    simp only [HandoffStep.apply, StateHandoff.supervise]
    split
    · exact h
    · split <;> exact h
    · exact h
  | respawn =>
    simp only [HandoffStep.apply, StateHandoff.respawn]
    split <;> exact h
  | other step => exact fun item hitem => hmeets item hitem (h item hitem)

end Current

variable {events : List HandoffEvent} {phase : WorkerPhase} {config : HandoffConfig}

section Moves

variable {world : World} {handoff next : StateHandoff} {front : Accepted} {retryDeadline : Nat}

/-- What is logged after the front was taken is appended to. -/
theorem during_append {before during : List HandoffEvent} {since : Nat}
    (hsplit : handoff.log = before ++ .taken front since :: during) (hnone : ∀ item, .confirmed item ∉ during)
    (hlog : next.log = handoff.log ++ events) (hevs : ∀ item, .confirmed item ∉ events) :
    next.log = before ++ .taken front since :: (during ++ events) ∧ ∀ item, .confirmed item ∉ during ++ events := by
  refine ⟨?_, fun item hitem => ?_⟩
  · rw [hlog, hsplit, append_assoc, cons_append]
  · rcases mem_append.mp hitem with hitem | hitem
    · exact hnone item hitem
    · exact hevs item hitem

/-- The handoff goes on under its configuration, and nothing is confirmed. -/
structure GoesOn (handoff next : StateHandoff) : Prop where
  config : next.config = handoff.config
  log : ∃ events, next.log = handoff.log ++ events ∧ ∀ item, .confirmed item ∉ events

theorem GoesOn.silent (hconf : next.config = handoff.config) (hlog : next.log = handoff.log) : GoesOn handoff next :=
  ⟨hconf, [], by rw [hlog, append_nil], fun _ => not_mem_nil⟩

theorem GoesOn.event {event : HandoffEvent} (hconf : next.config = handoff.config)
    (hlog : next.log = handoff.log ++ [event]) (hev : event.confirmation = none) : GoesOn handoff next := by
  refine ⟨hconf, [event], hlog, fun item hitem => ?_⟩
  rw [← mem_singleton.mp hitem] at hev
  cases hev

theorem Trying.frame (h : Trying front retryDeadline handoff) (hgo : GoesOn handoff next)
    (hfront : next.queue.head? = some front) : Trying front retryDeadline next := by
  obtain ⟨-, before, since, during, hsplit, hdeadline, hnone⟩ := h
  obtain ⟨hconf, events, hlog, hevs⟩ := hgo
  obtain ⟨hsplit, hnone⟩ := during_append hsplit hnone hlog hevs
  exact ⟨hfront, before, since, during ++ events, hsplit, hconf ▸ hdeadline, hnone⟩

theorem RefusedThroughout.frame (h : RefusedThroughout front handoff) (hgo : GoesOn handoff next)
    (hfront : next.queue.head? = some front) : RefusedThroughout front next := by
  obtain ⟨-, before, since, during, instant, hsplit, hrep, hdeadline, hnone⟩ := h
  obtain ⟨hconf, events, hlog, hevs⟩ := hgo
  obtain ⟨hsplit, hnone⟩ := during_append hsplit hnone hlog hevs
  exact ⟨hfront, before, since, during ++ events, instant, hsplit, mem_append_left _ hrep, hconf ▸ hdeadline, hnone⟩

theorem Trying.expired (h : Trying front retryDeadline handoff) (hconf : next.config = handoff.config)
    (hfront : next.queue.head? = some front) {now : Nat} (hlog : next.log = handoff.log ++ [.reported front now])
    (hpast : retryDeadline ≤ now) : RefusedThroughout front next := by
  obtain ⟨-, before, since, during, hsplit, rfl, hnone⟩ := h
  obtain ⟨hsplit, hnone⟩ := during_append hsplit hnone hlog (fun item hitem => by cases mem_singleton.mp hitem)
  exact ⟨hfront, before, since, _, now, hsplit, mem_append_right _ mem_cons_self, hconf ▸ hpast, hnone⟩

/-- Where the front stays and nothing is confirmed, what the worker tries stays. -/
theorem WorkerPhase.Tries.frame (h : phase.Tries handoff) (hgo : GoesOn handoff next)
    (hfront : ∀ front, handoff.queue.head? = some front → next.queue.head? = some front) : phase.Tries next := by
  cases phase with
  | sending front | sleeping front | awaiting front => exact Trying.frame h hgo (hfront front h.1)
  | returned =>
    obtain ⟨front, href⟩ := h
    exact ⟨front, href.frame hgo (hfront front href.1)⟩
  | waiting | crashed | respawning | gone => trivial

theorem tries_reply (h : phase.Tries handoff) {awaited : Bool} : (phase.reply awaited result).Tries handoff := by
  rw [WorkerPhase.reply.eq_def]
  split
  · split <;> exact h
  · exact h

namespace StopsRightly

theorem frame (h : StopsRightly handoff) (hgo : GoesOn handoff next)
    (hstate : next.state = handoff.state) (hcount : next.restartCount = handoff.restartCount)
    (hfront : ∀ front, handoff.queue.head? = some front → next.queue.head? = some front)
    (htries : next.worker.Tries handoff) (hgone : handoff.worker = .gone → next.worker = .gone) :
    StopsRightly next := by
  refine ⟨htries.frame hgo hfront, fun hstop => hgone (h.gone (hstate ▸ hstop)), fun hstop => ?_⟩
  rw [hgo.config, hcount]
  rcases h.reason (hstate ▸ hstop) with hbudget | ⟨front, href⟩
  · exact .inl hbudget
  · exact .inr ⟨front, href.frame hgo (hfront front href.1)⟩

theorem of_open (htries : next.worker.Tries next) (hopen : next.state ≠ .unavailable) : StopsRightly next :=
  ⟨htries, fun hstop => absurd hstop hopen, fun hstop => absurd hstop hopen⟩

theorem not_unavailable (h : StopsRightly handoff) (hwork : handoff.worker ≠ .gone) : handoff.state ≠ .unavailable :=
  fun hstop => hwork (h.gone hstop)

theorem move (h : StopsRightly handoff) (hmove : HandoffMove world handoff next) : StopsRightly next := by
  have hreply : ∀ awaited result, handoff.worker = .gone → handoff.worker.reply awaited result = .gone := by
    intro awaited result hgone
    rw [hgone]
    rfl
  cases hmove with
  | idle => exact h
  | refused full unavailable =>
    exact h.frame (.silent rfl rfl) rfl rfl (fun _ hfront => hfront) h.tries id
  | accepted transition hroom =>
    refine h.frame (.event rfl rfl rfl) rfl rfl (fun front hfront => ?_) h.tries id
    rw [head?_append, hfront, some_or]
  | taken front now hwork hfront =>
    exact of_open ⟨hfront, handoff.log, now, [], rfl, rfl, fun _ => not_mem_nil⟩ (h.not_unavailable (hwork ▸ nofun))
  | submitted front retryDeadline hwork =>
    have htries := h.tries
    rw [hwork] at htries
    exact of_open (Trying.frame htries (.event rfl rfl rfl) htries.1) (h.not_unavailable (hwork ▸ nofun))
  | reported front retryDeadline now exhaustions worker lane hwork hnext =>
    have htries : Trying front retryDeadline handoff ∧ handoff.worker ≠ .gone := by
      have htries := h.tries
      rcases hwork with ⟨hwork, -⟩ | ⟨error, hwork, -⟩ | ⟨hwork, -⟩
      · exact ⟨by rwa [hwork] at htries, hwork ▸ nofun⟩
      · exact ⟨by rwa [hwork] at htries, hwork ▸ nofun⟩
      · exact ⟨by rwa [hwork] at htries, hwork ▸ nofun⟩
    refine of_open ?_ (h.not_unavailable htries.2)
    rcases hnext with ⟨hpast, rfl⟩ | rfl
    · exact ⟨front, htries.1.expired rfl htries.1.1 rfl hpast⟩
    · exact Trying.frame htries.1 (.event rfl rfl rfl) htries.1.1
  | applied ambient failure item awaited lane db hlane hok =>
    exact h.frame (.event rfl rfl rfl) rfl rfl (fun _ hfront => hfront) (tries_reply h.tries) (hreply awaited _)
  | failed ambient failure item awaited lane db error hlane herr =>
    exact h.frame (.silent rfl rfl) rfl rfl (fun _ hfront => hfront) (tries_reply h.tries) (hreply awaited _)
  | confirmed front retryDeadline hwork =>
    exact of_open trivial (h.not_unavailable (hwork ▸ nofun))
  | woken front retryDeadline hwork =>
    have htries := h.tries
    rw [hwork] at htries
    exact of_open (Trying.frame htries (.silent rfl rfl) htries.1) (h.not_unavailable (hwork ▸ nofun))
  | crashed hwork => exact of_open trivial (h.not_unavailable hwork)
  | stopped hwork =>
    have htries := h.tries
    rw [hwork] at htries
    obtain ⟨front, href⟩ := htries
    exact ⟨trivial, fun _ => rfl, fun _ => .inr ⟨front, href.frame (.silent rfl rfl) href.1⟩⟩
  | exhausted hwork hbudget => exact ⟨trivial, fun _ => rfl, fun _ => .inl hbudget⟩
  | restarting | respawned => exact of_open trivial nofun
  | other step =>
    exact h.frame (.event rfl rfl rfl) rfl rfl (fun _ hfront => hfront) h.tries id

theorem of_start {db : Db} (h : StateHandoff.start config db = .ok handoff) :
    StopsRightly handoff ∧ ∀ item ∈ handoff.queue, item.transition.current handoff.db = true := by
  rw [StateHandoff.start] at h
  split at h
  · cases h
  · cases h
    exact ⟨of_open trivial (fun h => by cases h), fun _ h => by cases h⟩

end StopsRightly

theorem stopsRightly_run (hinv : HandoffInv config handoff) (h : StopsRightly handoff)
    (hcur : ∀ item ∈ handoff.queue, item.transition.current handoff.db = true) {steps : List HandoffStep}
    (hmeets : HandoffMeets world steps handoff) :
    (handoff.run world steps).config = config ∧ StopsRightly (handoff.run world steps) ∧
      ∀ item ∈ (handoff.run world steps).queue, item.transition.current (handoff.run world steps).db = true := by
  induction steps generalizing handoff with
  | nil => exact ⟨hinv.config, h, hcur⟩
  | cons step steps ih =>
    have hmove : HandoffMove world handoff (step.apply world handoff) := step.apply_moves
    exact ih (hinv.move hmove) (h.move hmove) (hmeets.1.keeps hcur) hmeets.2

end Moves

/-- In every run whose steps meet the condition, an unavailable handoff has used up its restarts, or the writer
refused a transition for the whole of its retry deadline whose messages are still stored and whose permit is still
current. -/
theorem handoff_stops_rightly (world : World) (config : HandoffConfig) (db : Db) (handoff : StateHandoff)
    (hstart : StateHandoff.start config db = .ok handoff) (steps : List HandoffStep)
    (hmeets : HandoffMeets world steps handoff) (hstopped : (handoff.run world steps).state = .unavailable) :
    config.supervisorMaxRestarts < (handoff.run world steps).restartCount ∨
    ∃ front, RefusedThroughout front (handoff.run world steps) ∧
      front.transition.current (handoff.run world steps).db = true := by
  have hinv := (HandoffInv.of_start hstart).1
  have hstops := StopsRightly.of_start hstart
  obtain ⟨hconfig, hright, hcurrent⟩ := stopsRightly_run hinv hstops.1 hstops.2 hmeets
  rcases hright.reason hstopped with hbudget | ⟨front, hrefused⟩
  · exact .inl (hconfig ▸ hbudget)
  · exact .inr ⟨front, hrefused, hcurrent front (mem_of_mem_head? hrefused.1)⟩

/-- The writer fails until the deadline. -/
def sampleFailing : List HandoffStep :=
  [.push .ready sampleReading, .take 0, .submit 0 none, .write .steady (some (.validation "disk I/O error")),
    .receive 5000 none, .supervise]

theorem failing_writer_stops_handoff :
    ((sampleHandoff sampleStored).run .accepting sampleFailing).state = .unavailable ∧
    ∃ front, RefusedThroughout front ((sampleHandoff sampleStored).run .accepting sampleFailing) ∧
      front.transition.current ((sampleHandoff sampleStored).run .accepting sampleFailing).db = true := by
  have hstopped : ((sampleHandoff sampleStored).run .accepting sampleFailing).state = .unavailable := by decide +kernel
  refine ⟨hstopped, (handoff_stops_rightly .accepting sampleHandoffConfig sampleStored (sampleHandoff sampleStored) rfl
    sampleFailing ⟨?_, trivial, trivial, trivial, trivial, trivial, trivial⟩ hstopped).resolve_left (by decide +kernel)⟩
  show sampleReading.current sampleStored = true
  decide +kernel

/-- The message is cleared between the read and the application of its transition. -/
def sampleCleared : List HandoffStep :=
  [.push .ready sampleReading,
    .other (.store (.write ⟨.deleteMessage (sampleMessage sampleLead sampleMember 7).messageKey .local, .steady⟩)),
    .take 0, .submit 0 none, .write .steady none, .receive 5000 none, .supervise]

/-- The read transitions of another mailbox are refused from then on. -/
theorem cleared_message_stops_handoff :
    ((sampleHandoff sampleStored).run .accepting sampleCleared).state = .unavailable ∧
    ¬ (sampleHandoffConfig.supervisorMaxRestarts <
      ((sampleHandoff sampleStored).run .accepting sampleCleared).restartCount ∨
      ∃ front, RefusedThroughout front ((sampleHandoff sampleStored).run .accepting sampleCleared) ∧
        front.transition.current ((sampleHandoff sampleStored).run .accepting sampleCleared).db = true) ∧
    (((sampleHandoff sampleStored).run .accepting sampleCleared).tryPush
      ((sampleHandoff sampleStored).run .accepting sampleCleared).state
      { sampleReading with scope := ⟨sampleTeam, sampleLead⟩ }).1 = .error .unavailable := by
  have hfront : ((sampleHandoff sampleStored).run .accepting sampleCleared).queue.head? = some ⟨0, sampleReading⟩ := by
    decide +kernel
  refine ⟨by decide +kernel, ?_, by decide +kernel⟩
  rintro (hbudget | ⟨front, hrefused, hcurrent⟩)
  · exact absurd hbudget (by decide +kernel)
  · obtain rfl : ⟨0, sampleReading⟩ = front := some.inj (hfront.symm.trans hrefused.1)
    exact absurd hcurrent (by decide +kernel)

end AtmCore
