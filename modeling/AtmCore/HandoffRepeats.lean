import AtmCore.HandoffMoves

/-! Repeated applications. A transition is submitted again only after a restart or an error that the worker was told of,
and an application that follows another one of the same transition finds the messages read and the watermark set. -/

namespace AtmCore

open List Option

/-- A restart, or an error of the writer, came after a submission of the transition. -/
def Again (item : Accepted) (log : List HandoffEvent) : Prop :=
  [.submitted item, .restarted].Sublist log ∨ ∃ instant, [.submitted item, .reported item instant].Sublist log

variable {item : Accepted} {log : List HandoffEvent}

theorem Again.append (h : Again item log) (events : List HandoffEvent) : Again item (log ++ events) := by
  rcases h with h | ⟨instant, h⟩
  · exact .inl (h.trans (sublist_append_left _ _))
  · exact .inr ⟨instant, h.trans (sublist_append_left _ _)⟩

theorem sublist_concat_of_mem {α : Type} {a b : α} {l : List α} (h : a ∈ l) : [a, b].Sublist (l ++ [b]) :=
  (singleton_sublist.mpr h).append (List.Sublist.refl [b])

/-- The worker may take or submit the front. -/
def WorkerPhase.offers : WorkerPhase → Bool
  | .waiting | .sending _ _ | .sleeping _ _ => true
  | _ => false

/-- What is known of submissions. -/
structure Repeats (handoff : StateHandoff) : Prop where
  turn : ∀ item, .submitted item ∈ handoff.log → item ∈ handoff.confirmed ∨ handoff.queue.head? = some item
  lane : ∀ entry ∈ handoff.lane, .submitted entry.1 ∈ handoff.log
  applied : ∀ item ∈ handoff.applied, .submitted item ∈ handoff.log
  /-- What may be submitted again may be applied again. -/
  offered : handoff.worker.offers = true → ∀ item, handoff.queue.head? = some item → .submitted item ∈ handoff.log →
    Again item handoff.log
  /-- What is in the lane beside an earlier submission may be applied again. -/
  pending : ∀ item, handoff.queue.head? = some item →
    2 ≤ handoff.lane.length ∨ (handoff.lane ≠ [] ∧ item ∈ handoff.applied) → Again item handoff.log

/-- Each submission of the lane stays or goes; nobody may wait for it any more. -/
def Shrinks (lane lane' : List (Accepted × Bool)) : Prop :=
  (∀ entry ∈ lane', ∃ awaited, (entry.1, awaited) ∈ lane) ∧ lane'.length ≤ lane.length

variable {event : HandoffEvent} {awaited : Bool} {front : Accepted} {retryDeadline : Nat}

namespace Repeats

variable {world : World} {handoff next : StateHandoff} {lane : List (Accepted × Bool)}

/-- Where the buffer stays, nothing new is applied or submitted, and the lane does not grow. -/
theorem frame (h : Repeats handoff) (hqueue : next.queue = handoff.queue) (hconf : next.confirmed = handoff.confirmed)
    (happ : next.applied = handoff.applied) (hsub : ∀ item, .submitted item ∈ next.log ↔ .submitted item ∈ handoff.log)
    (hagain : ∀ item, Again item handoff.log → Again item next.log) (hlane : Shrinks handoff.lane next.lane)
    (hoffered : next.worker.offers = true → handoff.worker.offers = true ∨
      ∀ item, handoff.queue.head? = some item → .submitted item ∈ handoff.log → Again item next.log) :
        Repeats next := by
  refine ⟨fun item hitem => ?_, fun entry hentry => ?_, fun item hitem => ?_, fun hoff item hfront hitem => ?_,
    fun item hfront hpend => ?_⟩
  · rw [hqueue, hconf]
    exact h.turn item ((hsub item).mp hitem)
  · obtain ⟨awaited, hold⟩ := hlane.1 entry hentry
    exact (hsub _).mpr (h.lane (entry.1, awaited) hold)
  · rw [happ] at hitem
    exact (hsub item).mpr (h.applied item hitem)
  · rw [hqueue] at hfront
    rcases hoffered hoff with hold | hnew
    · exact hagain item (h.offered hold item hfront ((hsub item).mp hitem))
    · exact hnew item hfront ((hsub item).mp hitem)
  · rw [hqueue] at hfront
    rw [happ] at hpend
    refine hagain item (h.pending item hfront ?_)
    rcases hpend with htwo | ⟨hne, hitem⟩
    · exact .inl (Nat.le_trans htwo hlane.2)
    · refine .inr ⟨fun hnil => hne ?_, hitem⟩
      rw [hnil] at hlane
      exact length_eq_zero_iff.mp (Nat.le_zero.mp hlane.2)

theorem submitted_append (hev : ∀ item, event ≠ .submitted item)
    (item : Accepted) : .submitted item ∈ log ++ [event] ↔ .submitted item ∈ log := by
  rw [mem_append, mem_singleton]
  exact ⟨fun h => h.resolve_right (fun heq => hev item heq.symm), .inl⟩

theorem shrinks_self : Shrinks lane lane := ⟨fun entry hentry => ⟨entry.2, hentry⟩, Nat.le_refl _⟩

theorem shrinks_abandon : Shrinks handoff.lane handoff.abandon := by
  refine ⟨fun entry hentry => ?_, Nat.le_of_eq (length_map ..)⟩
  obtain ⟨submission, hsubm, rfl⟩ := List.mem_map.mp hentry
  exact ⟨submission.2, hsubm⟩

theorem offers_reply {phase : WorkerPhase} {result : Except AtmError Unit} :
    (phase.reply awaited result).offers = phase.offers := by
  rw [WorkerPhase.reply.eq_def]
  split
  · split <;> rfl
  · rfl

variable (h : Repeats handoff)
include h

theorem submit (hwork : handoff.worker = .sending front retryDeadline) (hfront : handoff.queue.head? = some front)
    (hlane : ∀ entry ∈ handoff.lane, handoff.queue.head? = some entry.1) : Repeats { handoff with
      worker := .awaiting front retryDeadline none
      lane := handoff.lane ++ [(front, true)]
      log := handoff.log ++ [.submitted front] } := by
  let next : StateHandoff := { handoff with
    worker := .awaiting front retryDeadline none
    lane := handoff.lane ++ [(front, true)]
    log := handoff.log ++ [.submitted front] }
  obtain ⟨-, hconf, happ⟩ := @relay_of_quiet handoff next (.submitted front) rfl ⟨rfl, rfl, rfl⟩
  have hoff : handoff.worker.offers = true := by
    rw [hwork]
    rfl
  refine ⟨fun item hitem => ?_, fun entry hentry => ?_, fun item hitem => ?_, nofun, fun item hitem hpend => ?_⟩
  · rw [hconf]
    rcases mem_append.mp hitem with hitem | hitem
    · exact h.turn item hitem
    · obtain ⟨rfl⟩ := HandoffEvent.submitted.inj (mem_singleton.mp hitem)
      exact .inr hfront
  · rcases mem_append.mp hentry with hentry | hentry
    · exact mem_append_left _ (h.lane entry hentry)
    · obtain rfl := mem_singleton.mp hentry
      exact mem_append_right _ mem_cons_self
  · rw [happ] at hitem
    exact mem_append_left _ (h.applied item hitem)
  · -- an earlier submission of the front is in the lane or was applied
    refine (h.offered hoff item hitem ?_).append _
    rw [happ] at hpend
    rcases hpend with htwo | ⟨-, hitem⟩
    · rw [length_append, length_singleton] at htwo
      obtain ⟨entry, hentry⟩ := exists_mem_of_length_pos (Nat.le_of_succ_le_succ htwo)
      obtain rfl := some.inj (hitem.symm.trans (hlane entry hentry))
      exact h.lane entry hentry
    · exact h.applied item hitem

theorem apply (hlane : handoff.lane = (item, awaited) :: lane) (db : Db) :
    Repeats (handoff.applying item awaited lane db) := by
  let next := handoff.applying item awaited lane db
  have hconf : next.confirmed = handoff.confirmed := (confirmed_of_log rfl).trans (append_nil _)
  have happ : next.applied = handoff.applied ++ [item] := @applied_of_log handoff next (.applied item) rfl
  have hsub : ∀ other, .submitted other ∈ next.log ↔ .submitted other ∈ handoff.log := submitted_append nofun
  have hlogged : .submitted item ∈ handoff.log := h.lane (item, awaited) (hlane ▸ mem_cons_self)
  refine ⟨fun other hother => ?_, fun entry hentry => ?_, fun other hother => ?_, fun hoff other hfront hother => ?_,
    fun other hfront hpend => ?_⟩
  · rw [hconf]
    exact h.turn other ((hsub other).mp hother)
  · exact (hsub _).mpr (h.lane entry (hlane ▸ mem_cons_of_mem _ hentry))
  · rw [happ] at hother
    rcases mem_append.mp hother with hother | hother
    · exact (hsub other).mpr (h.applied other hother)
    · obtain rfl := mem_singleton.mp hother
      exact (hsub other).mpr hlogged
  · dsimp only at hoff
    rw [offers_reply] at hoff
    exact (h.offered hoff other hfront ((hsub other).mp hother)).append _
  · refine (h.pending other hfront ?_).append _
    rw [happ] at hpend
    rw [hlane, length_cons]
    rcases hpend with htwo | ⟨hne, hmem⟩
    · exact .inl (Nat.le_succ_of_le htwo)
    · exact .inl (Nat.succ_le_succ (length_pos_iff.mpr hne))

theorem confirm (hs : HandoffSound handoff) (hnd : handoff.accepted.Nodup)
    (hwork : handoff.worker = .awaiting front retryDeadline (some (.ok ()))) : Repeats (handoff.confirming front) := by
  let next := handoff.confirming front
  have hconf : next.confirmed = handoff.confirmed ++ [front] := @confirmed_of_log handoff next (.confirmed front) rfl
  have happ : next.applied = handoff.applied := (applied_of_log rfl).trans (append_nil _)
  have hsub : ∀ other, .submitted other ∈ next.log ↔ .submitted other ∈ handoff.log := submitted_append nofun
  obtain ⟨hfront, hlane, -⟩ := hs.fits hwork
  have hqueue : handoff.queue = front :: handoff.queue.tail := (cons_head?_tail hfront).symm
  refine ⟨fun item hitem => ?_, fun entry hentry => ?_, fun item hitem => ?_, fun _ item hhead hitem => ?_,
    fun item _ hpend => ?_⟩
  · rw [hconf]
    rcases h.turn item ((hsub item).mp hitem) with hold | hturn
    · exact .inl (mem_append_left _ hold)
    · obtain rfl := some.inj (hfront.symm.trans hturn)
      exact .inl (mem_append_right _ mem_cons_self)
  · dsimp only at hentry
    rw [hlane] at hentry
    cases hentry
  · rw [happ] at hitem
    exact (hsub item).mpr (h.applied item hitem)
  · -- the new front is neither confirmed nor the old front, so it was not submitted
    exfalso
    have hmem : item ∈ handoff.queue.tail := mem_of_head? hhead
    rw [hs.buffered, hqueue] at hnd
    obtain ⟨-, hqueueNodup, hap⟩ := nodup_append.mp hnd
    rcases h.turn item ((hsub item).mp hitem) with hold | hturn
    · exact hap item hold item (mem_cons_of_mem _ hmem) rfl
    · obtain rfl := some.inj (hfront.symm.trans hturn)
      exact (nodup_cons.mp hqueueNodup).1 hmem
  · dsimp only at hpend
    rw [hlane] at hpend
    rcases hpend with htwo | ⟨hne, -⟩
    · cases htwo
    · exact absurd rfl hne

theorem accept (hs : HandoffSound handoff) (transition : ReadDisplayTransition) :
    Repeats (handoff.accepting transition) := by
  let item : Accepted := ⟨handoff.accepted.length, transition⟩
  let next := handoff.accepting transition
  have hconf : next.confirmed = handoff.confirmed := (confirmed_of_log rfl).trans (append_nil _)
  have happ : next.applied = handoff.applied := (applied_of_log rfl).trans (append_nil _)
  have hsub : ∀ other, .submitted other ∈ next.log ↔ .submitted other ∈ handoff.log := submitted_append nofun
  have hkeeps : ∀ front, handoff.queue.head? = some front → (handoff.queue ++ [item]).head? = some front := by
    intro front hhead
    rw [head?_append, hhead]
    rfl
  -- a front that is new was not submitted and is not in the lane
  have hfront : ∀ front, (handoff.queue ++ [item]).head? = some front → handoff.queue.head? = some front ∨
      (handoff.lane = [] ∧ .submitted front ∉ handoff.log) := by
    intro front hhead
    cases hqueue : handoff.queue with
    | cons old rest =>
      rw [hqueue] at hhead
      exact .inl hhead
    | nil =>
      rw [hqueue] at hhead
      cases hhead
      refine .inr ⟨eq_nil_iff_forall_not_mem.mpr (fun entry hentry => ?_), fun hlogged => ?_⟩
      · have hold := hs.lane entry hentry
        rw [hqueue] at hold
        cases hold
      · rcases h.turn item hlogged with hold | hturn
        · have hmem : item ∈ handoff.accepted := by
            rw [hs.buffered]
            exact mem_append_left _ hold
          exact Nat.lt_irrefl _ (hs.numbers item hmem)
        · rw [hqueue] at hturn
          cases hturn
  refine ⟨fun other hother => ?_, fun entry hentry => (hsub _).mpr (h.lane entry hentry), fun other hother => ?_,
    fun hoff other hhead hother => ?_, fun other hhead hpend => ?_⟩
  · rw [hconf]
    exact (h.turn other ((hsub other).mp hother)).imp id (hkeeps other)
  · rw [happ] at hother
    exact (hsub other).mpr (h.applied other hother)
  · rcases hfront other hhead with hold | ⟨-, hnone⟩
    · exact (h.offered hoff other hold ((hsub other).mp hother)).append _
    · exact absurd ((hsub other).mp hother) hnone
  · rw [happ] at hpend
    rcases hfront other hhead with hold | ⟨hlane, -⟩
    · exact (h.pending other hold hpend).append _
    · dsimp only at hpend
      rw [hlane] at hpend
      rcases hpend with htwo | ⟨hne, -⟩
      · cases htwo
      · exact absurd rfl hne

/-- An event that is neither an application nor a confirmation nor a submission. -/
theorem frame_event (hlog : next.log = handoff.log ++ [event])
    (hquiet : event.quiet) (hev : ∀ item, event ≠ .submitted item) (hqueue : next.queue = handoff.queue)
    (hlane : Shrinks handoff.lane next.lane) (hoffered : next.worker.offers = true → handoff.worker.offers = true ∨
      ∀ item, handoff.queue.head? = some item → .submitted item ∈ handoff.log → Again item next.log) :
        Repeats next := by
  obtain ⟨-, hconf, happ⟩ := relay_of_quiet hlog hquiet
  refine h.frame hqueue hconf happ ?_ ?_ hlane hoffered
  · rw [hlog]
    exact submitted_append hev
  · rw [hlog]
    exact fun item hagain => hagain.append _

/-- A move without an event. -/
theorem frame_silent (hlog : next.log = handoff.log) (hqueue : next.queue = handoff.queue)
    (hlane : Shrinks handoff.lane next.lane)
    (hoffered : next.worker.offers = true → handoff.worker.offers = true) : Repeats next := by
  refine h.frame hqueue ?_ ?_ ?_ ?_ hlane (fun hoff => .inl (hoffered hoff))
  · rw [StateHandoff.confirmed, hlog, StateHandoff.confirmed]
  · rw [StateHandoff.applied, hlog, StateHandoff.applied]
  · rw [hlog]
    exact fun item => Iff.rfl
  · rw [hlog]
    exact fun item hagain => hagain

/-- Every move keeps what is known of submissions. -/
theorem move (hs : HandoffSound handoff) (hnd : handoff.accepted.Nodup)
    (hmove : HandoffMove world handoff next) : Repeats next := by
  cases hmove with
  | idle => exact h
  | refused => exact h.frame_silent rfl rfl shrinks_self id
  | accepted transition hroom => exact h.accept hs transition
  | taken front now hwork hfront =>
    refine h.frame_event rfl ⟨rfl, rfl, rfl⟩ nofun rfl shrinks_self (fun _ => .inl ?_)
    rw [hwork]
    rfl
  | submitted front retryDeadline hwork =>
    exact h.submit hwork (hs.fits hwork).1 hs.lane
  | reported front retryDeadline now exhaustions worker lane hwork hnext =>
    have hheld := (hs.reported hwork).1
    have hlane : Shrinks handoff.lane lane := by
      rcases hwork with ⟨-, rfl⟩ | ⟨error, -, rfl⟩ | ⟨-, rfl⟩
      · exact shrinks_self
      · exact shrinks_self
      · exact shrinks_abandon
    refine h.frame_event rfl ⟨rfl, rfl, rfl⟩ nofun rfl hlane (fun _ => .inr (fun item hfront hitem => ?_))
    obtain rfl := some.inj (hheld.symm.trans hfront)
    exact .inr ⟨now, sublist_concat_of_mem hitem⟩
  | applied ambient failure item awaited lane db hlane hok => exact h.apply hlane db
  | failed ambient failure item awaited lane db error hlane herr =>
    refine h.frame_silent rfl rfl ⟨fun entry hentry => ⟨entry.2, hlane ▸ mem_cons_of_mem _ hentry⟩, ?_⟩
      (fun hoff => ?_)
    · rw [hlane]
      exact Nat.le_succ _
    · dsimp only at hoff
      rwa [offers_reply] at hoff
  | confirmed front retryDeadline hwork => exact h.confirm hs hnd hwork
  | woken front retryDeadline hwork =>
    refine h.frame_silent rfl rfl shrinks_self (fun _ => ?_)
    rw [hwork]
    rfl
  | crashed => exact h.frame_silent rfl rfl shrinks_abandon nofun
  | stopped | exhausted | restarting => exact h.frame_silent rfl rfl shrinks_self nofun
  | respawned hwork =>
    exact h.frame_event rfl ⟨rfl, rfl, rfl⟩ nofun rfl shrinks_self
      (fun _ => .inr (fun item _ hitem => .inl (sublist_concat_of_mem hitem)))
  | other step =>
    exact h.frame_event rfl ⟨rfl, rfl, rfl⟩ nofun rfl shrinks_self .inl

end Repeats

end AtmCore
