import AtmCore.Handoff
import AtmCore.Relays

/-! What a step of the handoff can do, said once, and the order that the steps keep: the buffer is what was accepted
and is not confirmed, the lane of the writer has only copies of its front, and of these at most the last one is waited
for. -/

namespace AtmCore

open List Option

/-- The worker can report an error of its submission of the front, and then leaves this lane. -/
def StateHandoff.Reports (handoff : StateHandoff) (front : Accepted) (retryDeadline : Nat)
    (lane : List (Accepted × Bool)) : Prop :=
  (handoff.worker = .sending front retryDeadline ∧ lane = handoff.lane) ∨
  (∃ error, handoff.worker = .awaiting front retryDeadline (some (.error error)) ∧ lane = handoff.lane) ∨
  (handoff.worker = .awaiting front retryDeadline none ∧ lane = handoff.abandon)

inductive HandoffMove (world : World) (handoff : StateHandoff) : StateHandoff → Prop where
  | idle : HandoffMove world handoff handoff
  | refused (full unavailable : Nat) : HandoffMove world handoff
      { handoff with rejectedBufferFull := full, rejectedUnavailable := unavailable }
  | accepted (transition : ReadDisplayTransition) (hroom : handoff.queue.length < handoff.config.handoffBuffer) :
      HandoffMove world handoff { handoff with
        queue := handoff.queue ++ [⟨handoff.accepted.length, transition⟩]
        log := handoff.log ++ [.accepted ⟨handoff.accepted.length, transition⟩] }
  | taken (front : Accepted) (now : Nat) (hworker : handoff.worker = .waiting)
    (hfront : handoff.queue.head? = some front) :
      HandoffMove world handoff { handoff with
        worker := .sending front (now + handoff.config.handoffRetryDeadline)
        log := handoff.log ++ [.taken front now] }
  | submitted (front : Accepted) (retryDeadline : Nat) (hworker : handoff.worker = .sending front retryDeadline) :
      HandoffMove world handoff { handoff with
        worker := .awaiting front retryDeadline none
        lane := handoff.lane ++ [(front, true)]
        log := handoff.log ++ [.submitted front] }
  /-- The worker is done with its submission, if it had one: nobody waits for a reply. -/
  | reported (front : Accepted) (retryDeadline now exhaustions : Nat) (worker : WorkerPhase)
      (lane : List (Accepted × Bool)) (hworker : handoff.Reports front retryDeadline lane)
      (hnext : (retryDeadline ≤ now ∧ worker = .returned) ∨ worker = .sleeping front retryDeadline) :
      HandoffMove world handoff { handoff with
        retryDeadlineExhaustions := exhaustions
        worker := worker
        lane := lane
        log := handoff.log ++ [.reported front now] }
  | applied (ambient : Ambient) (failure : Option AtmError) (item : Accepted) (awaited : Bool)
      (lane : List (Accepted × Bool)) (db : Db) (hlane : handoff.lane = (item, awaited) :: lane)
      (hok : StateHandoff.outcome world ambient failure item.transition handoff.db = (.ok (), db)) :
      HandoffMove world handoff { handoff with
        worker := handoff.worker.reply awaited (.ok ())
        lane := lane
        db := db
        log := handoff.log ++ [.applied item] }
  | failed (ambient : Ambient) (failure : Option AtmError) (item : Accepted) (awaited : Bool)
      (lane : List (Accepted × Bool)) (db : Db) (error : AtmError) (hlane : handoff.lane = (item, awaited) :: lane)
      (herror : StateHandoff.outcome world ambient failure item.transition handoff.db = (.error error, db)) :
      HandoffMove world handoff { handoff with
        worker := handoff.worker.reply awaited (.error error)
        lane := lane
        db := db }
  | confirmed (front : Accepted) (retryDeadline : Nat)
      (hworker : handoff.worker = .awaiting front retryDeadline (some (.ok ()))) :
      HandoffMove world handoff { handoff with
        queue := handoff.queue.tail
        worker := .waiting
        log := handoff.log ++ [.confirmed front] }
  | woken (front : Accepted) (retryDeadline : Nat) (hworker : handoff.worker = .sleeping front retryDeadline) :
      HandoffMove world handoff { handoff with worker := .sending front retryDeadline }
  | crashed (hworker : handoff.worker ≠ .gone) :
      HandoffMove world handoff { handoff with worker := .crashed, lane := handoff.abandon }
  | stopped (hworker : handoff.worker = .returned) :
      HandoffMove world handoff { handoff with state := .unavailable, worker := .gone }
  | exhausted (hworker : handoff.worker = .crashed)
      (hbudget : handoff.config.supervisorMaxRestarts < handoff.restartCount + 1) :
      HandoffMove world handoff { handoff with
        restartCount := handoff.restartCount + 1, state := .unavailable, worker := .gone }
  | restarting (hworker : handoff.worker = .crashed) :
      HandoffMove world handoff { handoff with
        restartCount := handoff.restartCount + 1, state := .restarting, worker := .respawning }
  | respawned (hworker : handoff.worker = .respawning) :
      HandoffMove world handoff { handoff with state := .ready, worker := .waiting, log := handoff.log ++ [.restarted] }
  | other (step : LifeStep) : HandoffMove world handoff { handoff with
      db := step.apply world handoff.db, log := handoff.log ++ [.other] }

variable {handoff : StateHandoff} {last : Option Accepted} {front : Accepted} {retryDeadline now : Nat}

section Inversion

variable {world : World}

theorem report_moves (now : Nat) {lane : List (Accepted × Bool)} (hwork : handoff.Reports front retryDeadline lane) :
    HandoffMove world handoff (({ handoff with lane := lane } : StateHandoff).report now front retryDeadline) := by
  rw [StateHandoff.report]
  split
  · next hpast => exact .reported front retryDeadline now _ .returned lane hwork (.inl ⟨hpast, rfl⟩)
  · exact .reported front retryDeadline now handoff.retryDeadlineExhaustions (.sleeping front retryDeadline) lane hwork
      (.inr rfl)

theorem tryPush_moves {observed : SupervisorState} {transition : ReadDisplayTransition} :
    HandoffMove world handoff (handoff.tryPush observed transition).2 := by
  rw [StateHandoff.tryPush]
  split
  · exact .refused handoff.rejectedBufferFull _
  · split
    · exact .refused _ handoff.rejectedUnavailable
    · next hroom => exact .accepted transition (Nat.lt_of_not_le hroom)

theorem submit_moves {refused : Option AtmError} : HandoffMove world handoff (handoff.submit now refused) := by
  rw [StateHandoff.submit]
  split
  · next front retryDeadline hwork =>
    split
    · exact report_moves now (.inl ⟨hwork, rfl⟩)
    · exact .submitted front retryDeadline hwork
  · exact .idle

theorem write_moves {ambient : Ambient} {failure : Option AtmError} :
    HandoffMove world handoff (handoff.write world ambient failure) := by
  rw [StateHandoff.write]
  split
  · exact .idle
  · next item awaited lane hlane =>
    cases hout : StateHandoff.outcome world ambient failure item.transition handoff.db with
    | mk result db =>
      cases result with
      | ok _ => exact .applied ambient failure item awaited lane db hlane hout
      | error error => exact .failed ambient failure item awaited lane db error hlane hout

theorem receive_moves {lost : Option AtmError} : HandoffMove world handoff (handoff.receive now lost) := by
  rw [StateHandoff.receive]
  split
  · next front retryDeadline hwork => exact .confirmed front retryDeadline hwork
  · next front retryDeadline error hwork =>
    exact report_moves now (.inr (.inl ⟨error, hwork, rfl⟩))
  · next front retryDeadline hwork =>
    split
    · exact report_moves now (.inr (.inr ⟨hwork, rfl⟩))
    · exact .idle
  · exact .idle

/-- Every step is a move. -/
theorem HandoffStep.apply_moves (step : HandoffStep) : HandoffMove world handoff (step.apply world handoff) := by
  cases step with
  | push observed transition => exact tryPush_moves
  | take now =>
    rw [HandoffStep.apply, StateHandoff.takeFront]
    split
    · next front _ hwork hqueue => exact .taken front now hwork (by rw [hqueue]; rfl)
    · exact .idle
  | submit now refused => exact submit_moves
  | write ambient failure => exact write_moves
  | receive now lost => exact receive_moves
  | wake =>
    rw [HandoffStep.apply, StateHandoff.wake]
    split
    · next front retryDeadline hwork => exact .woken front retryDeadline hwork
    · exact .idle
  | crash =>
    rw [HandoffStep.apply, StateHandoff.crash]
    split
    · next hwork => exact .crashed (hwork ▸ nofun)
    · next hwork => exact .crashed (hwork ▸ nofun)
    · next hwork => exact .crashed (hwork ▸ nofun)
    · next hwork => exact .crashed (hwork ▸ nofun)
    · exact .idle
  | supervise =>
    rw [HandoffStep.apply, StateHandoff.supervise]
    split
    · next hwork => exact .stopped hwork
    · next hwork =>
      split
      · next hbudget => exact .exhausted hwork hbudget
      · exact .restarting hwork
    · exact .idle
  | respawn =>
    rw [HandoffStep.apply, StateHandoff.respawn]
    split
    · next hwork => exact .respawned hwork
    · exact .idle
  | other step => exact .other step

end Inversion

/-- Nobody waits for the replies of these submissions. -/
def Unawaited (lane : List (Accepted × Bool)) : Prop := ∀ entry ∈ lane, entry.2 = false

/-- What the worker holds is the front of the buffer. It waits for the last submission of the lane, and once this has
its reply the lane is empty. -/
def WorkerPhase.Fits (front : Option Accepted) (lane : List (Accepted × Bool)) (last : Option Accepted) :
    WorkerPhase → Prop
  | .sending held _ | .sleeping held _ => front = some held ∧ Unawaited lane
  | .awaiting held _ none => front = some held ∧ ∃ earlier, lane = earlier ++ [(held, true)] ∧ Unawaited earlier
  | .awaiting held _ (some reply) => front = some held ∧ lane = [] ∧ (reply = .ok () → last = some held)
  | _ => Unawaited lane

def StateHandoff.relay (handoff : StateHandoff) : Relay.State Accepted :=
  ⟨handoff.accepted, handoff.confirmed.length, handoff.applied⟩

structure HandoffSound (handoff : StateHandoff) : Prop where
  buffered : handoff.accepted = handoff.confirmed ++ handoff.queue
  numbers : ∀ item ∈ handoff.accepted, item.number < handoff.accepted.length
  room : handoff.queue.length ≤ handoff.config.handoffBuffer
  lane : ∀ entry ∈ handoff.lane, handoff.queue.head? = some entry.1
  worker : handoff.worker.Fits handoff.queue.head? handoff.lane handoff.applied.getLast?

theorem unawaited_abandon : Unawaited handoff.abandon := by
  intro entry hentry
  obtain ⟨submission, -, rfl⟩ := List.mem_map.mp hentry
  rfl

variable {result : Except AtmError Unit}

theorem WorkerPhase.reply_false (phase : WorkerPhase) : phase.reply false result = phase := by
  rw [WorkerPhase.reply.eq_def]
  split
  · exact if_neg Bool.false_ne_true
  · rfl

variable {lane : List (Accepted × Bool)} {item : Accepted} {phase : WorkerPhase}

/-- The worker waits for the last submission of the lane, or nobody waits. -/
theorem WorkerPhase.Fits.awaited {front : Option Accepted} (h : phase.Fits front lane last) :
    Unawaited lane ∨ ∃ held retryDeadline, phase = .awaiting held retryDeadline none ∧
      front = some held ∧ ∃ earlier, lane = earlier ++ [(held, true)] ∧ Unawaited earlier := by
  cases phase with
  | sending | sleeping => exact .inl h.2
  | awaiting held retryDeadline reply =>
    cases reply with
    | none => exact .inr ⟨held, retryDeadline, rfl, h⟩
    | some reply => exact .inl (fun entry hentry => by rw [h.2.1] at hentry; cases hentry)
  | waiting | crashed | returned | respawning | gone => exact .inl h

/-- A phase that waits for none of some submissions fits the rest of them, whatever was applied. -/
theorem WorkerPhase.Fits.rest {front : Option Accepted} {entry : Accepted × Bool}
    (h : phase.Fits front (entry :: lane) last) (hunawaited : Unawaited (entry :: lane))
    (last' : Option Accepted) : phase.Fits front lane last' := by
  have hrest : Unawaited lane := fun other hother => hunawaited other (mem_cons_of_mem entry hother)
  cases phase with
  | sending | sleeping => exact ⟨h.1, hrest⟩
  | awaiting held retryDeadline reply =>
    cases reply with
    | none =>
      obtain ⟨-, earlier, hsplit, -⟩ := h
      have hawaited := hunawaited (held, true) (hsplit ▸ mem_append_right _ mem_cons_self)
      cases hawaited
    | some reply => cases h.2.1
  | waiting | crashed | returned | respawning | gone => exact hrest

section Logs

variable {handoff next : StateHandoff} {event : HandoffEvent}

section

variable (h : next.log = handoff.log ++ [event])
include h

theorem accepted_of_log :
    next.accepted = handoff.accepted ++ event.acceptance.toList := by
  rw [StateHandoff.accepted, h, filterMap_append]
  cases event <;> rfl

theorem applied_of_log :
    next.applied = handoff.applied ++ event.application.toList := by
  rw [StateHandoff.applied, h, filterMap_append]
  cases event <;> rfl

theorem confirmed_of_log :
    next.confirmed = handoff.confirmed ++ event.confirmation.toList := by
  rw [StateHandoff.confirmed, h, filterMap_append]
  cases event <;> rfl

end

/-- An event that is neither of the three. -/
def HandoffEvent.quiet (event : HandoffEvent) : Prop :=
  event.acceptance = none ∧ event.confirmation = none ∧ event.application = none

theorem relay_of_quiet (h : next.log = handoff.log ++ [event]) (hquiet : event.quiet) :
    next.accepted = handoff.accepted ∧ next.confirmed = handoff.confirmed ∧ next.applied = handoff.applied := by
  rw [accepted_of_log h, confirmed_of_log h, applied_of_log h, hquiet.1, hquiet.2.1, hquiet.2.2]
  exact ⟨append_nil _, append_nil _, append_nil _⟩

theorem relay_of_log (h : next.log = handoff.log ++ [event]) : next.relay =
    ⟨handoff.accepted ++ event.acceptance.toList, handoff.confirmed.length + event.confirmation.toList.length,
      handoff.applied ++ event.application.toList⟩ := by
  rw [StateHandoff.relay, accepted_of_log h, confirmed_of_log h, applied_of_log h, length_append]

end Logs

section After

variable (handoff : StateHandoff)

/-- The handoff after a transition was accepted. -/
abbrev StateHandoff.accepting (transition : ReadDisplayTransition) : StateHandoff :=
  { handoff with
    queue := handoff.queue ++ [⟨handoff.accepted.length, transition⟩]
    log := handoff.log ++ [.accepted ⟨handoff.accepted.length, transition⟩] }

/-- The handoff after the writer applied the first submission of its lane. -/
abbrev StateHandoff.applying (item : Accepted) (awaited : Bool) (lane : List (Accepted × Bool)) (db : Db) :
    StateHandoff :=
  { handoff with
    worker := handoff.worker.reply awaited (.ok ()), lane := lane, db := db, log := handoff.log ++ [.applied item] }

/-- The handoff after the front was confirmed. -/
abbrev StateHandoff.confirming (front : Accepted) : StateHandoff :=
  { handoff with queue := handoff.queue.tail, worker := .waiting, log := handoff.log ++ [.confirmed front] }

end After

variable {awaited : Bool}

namespace HandoffSound

variable {world : World} {handoff next : StateHandoff}

variable (h : HandoffSound handoff)
include h

theorem turn : handoff.accepted[handoff.confirmed.length]? = handoff.queue.head? := by
  rw [h.buffered, getElem?_append_right (Nat.le_refl _), Nat.sub_self, head?_eq_getElem?]

theorem fits (hwork : handoff.worker = phase) :
    phase.Fits handoff.queue.head? handoff.lane handoff.applied.getLast? := hwork ▸ h.worker

/-- Where the order and the buffer stay, only the lane and the worker matter. -/
theorem frame (hconfig : next.config = handoff.config) (hqueue : next.queue = handoff.queue)
    (hrelay : next.accepted = handoff.accepted ∧ next.confirmed = handoff.confirmed ∧ next.applied = handoff.applied)
    (hlane : ∀ entry ∈ next.lane, handoff.queue.head? = some entry.1)
    (hwork : next.worker.Fits handoff.queue.head? next.lane handoff.applied.getLast?) : HandoffSound next := by
  obtain ⟨haccepted, hconf, happ⟩ := hrelay
  refine ⟨?_, ?_, ?_, fun entry hentry => ?_, ?_⟩
  · rw [haccepted, hconf, hqueue]
    exact h.buffered
  · rw [haccepted]
    exact h.numbers
  · rw [hqueue, hconfig]
    exact h.room
  · rw [hqueue]
    exact hlane entry hentry
  · rw [hqueue, happ]
    exact hwork

/-- The phase of the worker fits when the writer takes the first submission of its lane. -/
theorem fits_write (hlane : handoff.lane = (item, awaited) :: lane) (hlast : result = .ok () → last = some item) :
    (handoff.worker.reply awaited result).Fits handoff.queue.head? lane last := by
  have hwork := h.worker
  rw [hlane] at hwork
  rcases hwork.awaited with hunawaited | ⟨held, retryDeadline, hphase, hfront, earlier, hsplit, hearlier⟩
  · have hfalse : awaited = false := hunawaited (item, awaited) mem_cons_self
    rw [hfalse, WorkerPhase.reply_false]
    exact hwork.rest hunawaited last
  · rw [hphase]
    cases earlier with
    | nil =>
      -- the submission is the one that the worker waits for
      obtain ⟨hentry, rfl⟩ := List.cons.inj hsplit
      cases hentry
      exact ⟨hfront, rfl, hlast⟩
    | cons entry earlier =>
      cases hsplit
      have hfalse : awaited = false := hearlier (item, awaited) mem_cons_self
      rw [hfalse, WorkerPhase.reply_false]
      exact ⟨hfront, earlier, rfl, fun entry hentry => hearlier entry (mem_cons_of_mem _ hentry)⟩

theorem lane_abandon : ∀ entry ∈ handoff.abandon, handoff.queue.head? = some entry.1 := by
  intro entry hentry
  obtain ⟨submission, hsubm, rfl⟩ := List.mem_map.mp hentry
  exact h.lane submission hsubm

theorem accept (transition : ReadDisplayTransition)
    (hroom : handoff.queue.length < handoff.config.handoffBuffer) : HandoffSound (handoff.accepting transition) := by
  let item : Accepted := ⟨handoff.accepted.length, transition⟩
  let next := handoff.accepting transition
  have haccepted : next.accepted = handoff.accepted ++ [item] := @accepted_of_log handoff next (.accepted item) rfl
  have hconf : next.confirmed = handoff.confirmed := (confirmed_of_log rfl).trans (append_nil _)
  have happ : next.applied = handoff.applied := (applied_of_log rfl).trans (append_nil _)
  -- the front stays, unless the buffer was empty; then so was the lane
  have hfront : ∀ front, handoff.queue.head? = some front → (handoff.queue ++ [item]).head? = some front := by
    intro front hhead
    rw [head?_append, hhead]
    rfl
  refine ⟨?_, ?_, ?_, fun entry hentry => hfront entry.1 (h.lane entry hentry), ?_⟩
  · refine haccepted.trans ((congrArg (· ++ [item]) h.buffered).trans ?_)
    rw [hconf]
    exact append_assoc ..
  · rw [haccepted]
    intro other hother
    rw [length_append, length_singleton]
    rcases mem_append.mp hother with hother | hother
    · exact Nat.lt_succ_of_lt (h.numbers other hother)
    · obtain rfl := mem_singleton.mp hother
      exact Nat.lt_succ_self _
  · rw [length_append]
    exact hroom
  · have hwork := h.worker
    rw [happ]
    cases hphase : handoff.worker with
    | sending held | sleeping held =>
      rw [hphase] at hwork
      exact ⟨hfront held hwork.1, hwork.2⟩
    | awaiting held retryDeadline reply =>
      rw [hphase] at hwork
      cases reply with
      | none | some => exact ⟨hfront held hwork.1, hwork.2⟩
    | waiting | crashed | returned | respawning | gone =>
      rw [hphase] at hwork
      exact hwork

theorem apply (hlane : handoff.lane = (item, awaited) :: lane) (db : Db) :
    HandoffSound (handoff.applying item awaited lane db) := by
  let next := handoff.applying item awaited lane db
  have haccepted : next.accepted = handoff.accepted := (accepted_of_log rfl).trans (append_nil _)
  have hconf : next.confirmed = handoff.confirmed := (confirmed_of_log rfl).trans (append_nil _)
  have happ : next.applied = handoff.applied ++ [item] := @applied_of_log handoff next (.applied item) rfl
  refine ⟨?_, ?_, h.room, fun entry hentry => h.lane entry (hlane ▸ mem_cons_of_mem _ hentry), ?_⟩
  · rw [haccepted, hconf]
    exact h.buffered
  · rw [haccepted]
    exact h.numbers
  · rw [happ]
    exact h.fits_write hlane (fun _ => getLast?_concat ..)

theorem confirm (hwork : handoff.worker = .awaiting front retryDeadline (some (.ok ()))) :
    HandoffSound (handoff.confirming front) := by
  let next := handoff.confirming front
  have haccepted : next.accepted = handoff.accepted := (accepted_of_log rfl).trans (append_nil _)
  have hconf : next.confirmed = handoff.confirmed ++ [front] := @confirmed_of_log handoff next (.confirmed front) rfl
  obtain ⟨hfront, hlane, -⟩ := h.fits hwork
  have hqueue : handoff.queue = front :: handoff.queue.tail := (cons_head?_tail hfront).symm
  refine ⟨?_, ?_, ?_, fun entry hentry => ?_, fun entry hentry => ?_⟩
  · rw [haccepted, hconf, h.buffered, append_assoc, singleton_append, ← hqueue]
  · rw [haccepted]
    exact h.numbers
  · rw [length_tail]
    exact Nat.le_trans (Nat.sub_le _ _) h.room
  · dsimp only at hentry
    rw [hlane] at hentry
    cases hentry
  · rw [hlane] at hentry
    cases hentry

/-- A worker that reports held the front, and waits for nothing any more. -/
theorem reported (hwork : handoff.Reports front retryDeadline lane) :
    handoff.queue.head? = some front ∧ Unawaited lane ∧ ∀ entry ∈ lane, handoff.queue.head? = some entry.1 := by
  rcases hwork with ⟨hphase, rfl⟩ | ⟨error, hphase, rfl⟩ | ⟨hphase, rfl⟩
  · have hfits := h.fits hphase
    exact ⟨hfits.1, hfits.2, h.lane⟩
  · have hfits := h.fits hphase
    refine ⟨hfits.1, fun entry hentry => ?_, h.lane⟩
    rw [hfits.2.1] at hentry
    cases hentry
  · exact ⟨(h.fits hphase).1, unawaited_abandon, h.lane_abandon⟩

/-- Every move is a step of the relay, or leaves it as it is. -/
theorem refines (hmove : HandoffMove world handoff next) :
    Relation.ReflTransGen Relay.Step handoff.relay next.relay := by
  have hquiet : ∀ {event : HandoffEvent}, next.log = handoff.log ++ [event] → event.quiet →
      Relation.ReflTransGen Relay.Step handoff.relay next.relay := by
    intro event hlog hev
    obtain ⟨haccepted, hconf, happ⟩ := relay_of_quiet hlog hev
    rw [StateHandoff.relay, StateHandoff.relay, haccepted, hconf, happ]
  have hrelay := fun event => @relay_of_log handoff next event
  cases hmove with
  | idle | refused | failed | woken | crashed | stopped | exhausted | restarting => exact .refl
  | taken | submitted | reported | respawned | other => exact hquiet rfl ⟨rfl, rfl, rfl⟩
  | accepted transition hroom =>
    have hfr : (⟨handoff.accepted.length, transition⟩ : Accepted) ∉ handoff.accepted :=
      fun hmem => Nat.lt_irrefl _ (h.numbers _ hmem)
    rw [hrelay _ rfl]
    simp only [HandoffEvent.application, toList_none, append_nil]
    exact .single (.accept hfr)
  | applied ambient failure item awaited lane db hlane hok =>
    have hturn := h.turn.trans (h.lane (item, awaited) (hlane ▸ mem_cons_self))
    rw [hrelay _ rfl]
    simp only [HandoffEvent.acceptance, toList_none, append_nil]
    exact .single (.apply hturn)
  | confirmed front retryDeadline hwork =>
    have hfits := h.fits hwork
    rw [hrelay _ rfl]
    simp only [HandoffEvent.acceptance, HandoffEvent.application, toList_none, append_nil]
    exact .single (.confirm (h.turn.trans hfits.1) (hfits.2.2 rfl))

theorem move (hmove : HandoffMove world handoff next) : HandoffSound next := by
  cases hmove with
  | idle => exact h
  | refused => exact h.frame rfl rfl ⟨rfl, rfl, rfl⟩ h.lane h.worker
  | accepted transition hroom => exact h.accept transition hroom
  | taken front now hwork hfront =>
    exact h.frame rfl rfl (relay_of_quiet rfl ⟨rfl, rfl, rfl⟩) h.lane ⟨hfront, h.fits hwork⟩
  | submitted front retryDeadline hwork =>
    have hfits := h.fits hwork
    refine h.frame rfl rfl (relay_of_quiet rfl ⟨rfl, rfl, rfl⟩) (fun entry hentry => ?_)
      ⟨hfits.1, handoff.lane, rfl, hfits.2⟩
    rcases mem_append.mp hentry with hentry | hentry
    · exact h.lane entry hentry
    · obtain rfl := mem_singleton.mp hentry
      exact hfits.1
  | reported front retryDeadline now exhaustions worker lane hwork hnext =>
    obtain ⟨hfront, hunawaited, hlane⟩ := h.reported hwork
    refine h.frame rfl rfl (relay_of_quiet rfl ⟨rfl, rfl, rfl⟩) hlane ?_
    rcases hnext with ⟨-, rfl⟩ | rfl
    · exact hunawaited
    · exact ⟨hfront, hunawaited⟩
  | applied ambient failure item awaited lane db hlane hok => exact h.apply hlane db
  | failed ambient failure item awaited lane db error hlane herr =>
    exact h.frame rfl rfl ⟨rfl, rfl, rfl⟩ (fun entry hentry => h.lane entry (hlane ▸ mem_cons_of_mem _ hentry))
      (h.fits_write hlane nofun)
  | confirmed front retryDeadline hwork => exact h.confirm hwork
  | woken front retryDeadline hwork | stopped hwork | exhausted hwork | restarting hwork =>
    exact h.frame rfl rfl ⟨rfl, rfl, rfl⟩ h.lane (h.fits hwork :)
  | crashed => exact h.frame rfl rfl ⟨rfl, rfl, rfl⟩ h.lane_abandon (unawaited_abandon)
  | respawned hwork => exact h.frame rfl rfl (relay_of_quiet rfl ⟨rfl, rfl, rfl⟩) h.lane (h.fits hwork :)
  | other step => exact h.frame rfl rfl (relay_of_quiet rfl ⟨rfl, rfl, rfl⟩) h.lane h.worker

end HandoffSound

end AtmCore
