import AtmCore.EscalationLatch

/-! The rotation of the queue drain and the budget of a tick. A tick visits the eligible members from its cursor on
until its prompts are spent, and leaves the cursor behind the last member it visited. The tasks pass spends what is
left. -/

namespace AtmCore

open List

section Cycle

variable {α : Type} {xs : List α} (hn : 0 < xs.length)

/-- A list read round and round. -/
def cycled (xs : List α) (hn : 0 < xs.length) (i : Nat) : α := xs.get ⟨i % xs.length, Nat.mod_lt i hn⟩

theorem cycled_mod_add (i j : Nat) : cycled xs hn (i % xs.length + j) = cycled xs hn (i + j) := by
  simp only [cycled, Nat.mod_add_mod]

/-- Between two readings of one entry every entry is read. -/
theorem exists_cycled (hnd : xs.Nodup) {start i j : Nat} (hij : i < j)
    (h : cycled xs hn (start + i) = cycled xs hn (start + j)) {x : α} (hx : x ∈ xs) :
    ∃ k, i ≤ k ∧ k < j ∧ cycled xs hn (start + k) = x := by
  obtain ⟨place, rfl⟩ := List.get_of_mem hx
  have hmod : (start + i) % xs.length = (start + j) % xs.length :=
    congrArg Fin.val ((nodup_iff_injective_get.mp hnd) h)
  have hdvd : xs.length ∣ (start + j) - (start + i) :=
    Nat.dvd_of_mod_eq_zero (Nat.sub_mod_eq_zero_of_mod_eq hmod.symm)
  have hround := Nat.le_of_dvd (by omega) hdvd
  have hat := Nat.mod_lt (start + i) hn
  -- so many steps from the place of the first reading to the wanted one
  have hsteps := Nat.mod_lt (place.val + xs.length - (start + i) % xs.length) hn
  refine ⟨i + (place.val + xs.length - (start + i) % xs.length) % xs.length, by omega, by omega, ?_⟩
  have hval : (start + (i + (place.val + xs.length - (start + i) % xs.length) % xs.length)) % xs.length =
    place.val := by
    rw [← Nat.add_assoc, Nat.add_mod_mod, ← Nat.mod_add_mod, Nat.add_sub_cancel' (by omega), Nat.add_mod_right,
      Nat.mod_eq_of_lt place.isLt]
  simp only [cycled, hval]

end Cycle

/-- The members a tick visits, with whether Herdr accepted the prompt, its accepted prompts, and the cursor it
leaves. -/
structure Drain where
  visited : List (MemberKey × Bool)
  prompted : Nat
  cursor : Nat

section Rotation

variable (eligible : List MemberKey)

/-- The loop of `drain_eligible` at an offset; `process_candidate` counts the prompts that are accepted. -/
def drainFrom (hn : 0 < eligible.length) (start : Nat) (accepts : Nat → Bool) :
    Nat → Nat → Nat → List (MemberKey × Bool) × Nat
  | 0, _, prompted => ([], prompted)
  | left + 1, offset, prompted =>
    if herdrMaxPromptsPerTick ≤ prompted then ([], prompted)
    else
      let rest := drainFrom hn start accepts left (offset + 1) (prompted + (accepts offset).toNat)
      ((cycled eligible hn (start + offset), accepts offset) :: rest.1, rest.2)

def drainEligible (cursor : Nat) (accepts : Nat → Bool) : Drain :=
  if hn : 0 < eligible.length then
    let start := cursor % eligible.length
    let (visited, prompted) := drainFrom eligible hn start accepts eligible.length 0 0
    ⟨visited, prompted, (start + visited.length) % eligible.length⟩
  else ⟨[], 0, cursor⟩

def visitedBy : Nat → List (Nat → Bool) → List MemberKey
  | _, [] => []
  | cursor, accepts :: ticks =>
    let drain := drainEligible eligible cursor accepts
    drain.visited.map Prod.fst ++ visitedBy drain.cursor ticks

variable {eligible} (hn : 0 < eligible.length) (start : Nat) (accepts : Nat → Bool)

theorem drainFrom_visited (left offset prompted : Nat) :
    (drainFrom eligible hn start accepts left offset prompted).1.map Prod.fst =
      (range' offset (drainFrom eligible hn start accepts left offset prompted).1.length).map
        (fun i => cycled eligible hn (start + i)) := by
  fun_induction drainFrom with
  | case1 | case2 => rfl
  | case3 left offset prompted hlt rest ih => simp only [map_cons, length_cons, range'_succ, ih, rest]

/-- Every visit that is accepted is counted, and none is made once the budget is spent. -/
theorem drainFrom_prompted (left offset prompted : Nat) (h : prompted ≤ herdrMaxPromptsPerTick) :
    (drainFrom eligible hn start accepts left offset prompted).2 =
        prompted + (drainFrom eligible hn start accepts left offset prompted).1.countP Prod.snd ∧
      (drainFrom eligible hn start accepts left offset prompted).2 ≤ herdrMaxPromptsPerTick := by
  fun_induction drainFrom with
  | case1 | case2 => exact ⟨rfl, h⟩
  | case3 left offset prompted hlt rest ih =>
    have hstep : (accepts offset).toNat ≤ 1 := Bool.toNat_le _
    obtain ⟨hcount, hle⟩ := ih (by omega)
    have hbit : (accepts offset).toNat = if accepts offset = true then 1 else 0 := by cases accepts offset <;> rfl
    refine ⟨?_, hle⟩
    simp only [rest, countP_cons, hcount]
    omega

theorem drainEligible_prompted (eligible : List MemberKey) (cursor : Nat) (accepts : Nat → Bool) :
    (drainEligible eligible cursor accepts).visited.countP Prod.snd = (drainEligible eligible cursor accepts).prompted ∧
      (drainEligible eligible cursor accepts).prompted ≤ herdrMaxPromptsPerTick := by
  unfold drainEligible
  split
  · next hn =>
    obtain ⟨hcount, hle⟩ := drainFrom_prompted hn (cursor % eligible.length) accepts
      eligible.length 0 0 (Nat.zero_le _)
    exact ⟨by dsimp only; omega, hle⟩
  · exact ⟨rfl, Nat.zero_le _⟩

/-- Successive ticks read the list round and round from the first cursor on. -/
theorem visitedBy_eq (cursor : Nat) (ticks : List (Nat → Bool)) : visitedBy eligible cursor ticks =
      (List.range (visitedBy eligible cursor ticks).length).map (fun i => cycled eligible hn (cursor + i)) := by
  induction ticks generalizing cursor with
  | nil => rfl
  | cons accepts ticks ih =>
    have hvis := drainFrom_visited hn (cursor % eligible.length) accepts eligible.length 0 0
    rw [visitedBy, length_append, range_add, map_append, List.map_map]
    refine congrArg₂ _ ?_ ?_
    · simpa only [drainEligible, dif_pos hn, length_map, range_eq_range', cycled_mod_add] using hvis
    · rw [ih]
      simp only [length_map, length_range, drainEligible, dif_pos hn, cycled_mod_add, Function.comp_def,
        Nat.add_assoc]

end Rotation

section Budget

variable {world : World} {port : RenderPort} {inputs : TurnInputs} {pump next third : WakePump} {member : MemberKey}

/-- The prompts that a log has. -/
def promptCount (log : List WakeEvent) : Nat :=
  log.countP (fun event => match event with
    | .prompted _ _ => true
    | _ => false)

/-- Every prompt that was sent is counted, and within the budget. -/
structure Spends (pump next : WakePump) : Prop where
  counted : next.prompted + promptCount pump.log = pump.prompted + promptCount next.log
  within : next.prompted ≤ max pump.prompted herdrMaxPromptsPerTick

theorem Spends.refl (pump : WakePump) : Spends pump pump := ⟨rfl, le_max_left _ _⟩

theorem Spends.trans (h : Spends pump next) (h' : Spends next third) : Spends pump third := by
  obtain ⟨hcount, hwin⟩ := h
  obtain ⟨hcount', hwin'⟩ := h'
  exact ⟨by omega, by omega⟩

theorem Spends.of_log (hpd : next.prompted = pump.prompted) (hlog : promptCount next.log = promptCount pump.log) :
    Spends pump next := ⟨by rw [hpd, hlog], hpd ▸ le_max_left _ _⟩

theorem Spends.of_same (h : Spends next third) (hpd : next.prompted = pump.prompted) (hlog : next.log = pump.log) :
    Spends pump third :=
  Spends.trans (.of_log hpd (congrArg promptCount hlog)) h

theorem promptCount_append (log : List WakeEvent) (event : WakeEvent)
    (h : ∀ member instant, event ≠ .prompted member instant) : promptCount (log ++ [event]) = promptCount log := by
  cases event with
  | prompted member instant => exact absurd rfl (h member instant)
  | ledgerFailed | escalated => simp [promptCount]

theorem writeLedger_spends (taskId : TaskId) (write : ReminderWrite) :
    Spends pump (pump.writeLedger inputs member taskId write) := by
  unfold WakePump.writeLedger
  split
  · exact .of_log rfl rfl
  · exact .of_log rfl (promptCount_append _ _ nofun)

theorem emitTaskReminder_spends (row : TaskRow) (now : IsoTimestamp) :
    Spends pump (pump.emitTaskReminder inputs member row now) := by
  unfold WakePump.emitTaskReminder
  split
  · exact .refl pump
  next hbudget =>
    split
    · exact writeLedger_spends _ _
    · exact .refl pump
    · split
      · split
        · refine Spends.trans ⟨?_, ?_⟩ (writeLedger_spends _ _)
          · simp [promptCount]
            omega
          · dsimp only
            omega
        · exact .refl pump
      · exact .refl pump

/-- What a step writes after an event that is no prompt. -/
theorem Spends.after {event : WakeEvent} (h : Spends next third) (hpd : next.prompted = pump.prompted)
    (hlog : next.log = pump.log ++ [event]) (hev : ∀ member instant, event ≠ .prompted member instant) :
    Spends pump third :=
  Spends.trans (.of_log hpd (by rw [hlog, promptCount_append _ _ hev])) h

theorem escalateStalledTask_spends (row : TaskRow) (now : IsoTimestamp) :
    Spends pump (pump.escalateStalledTask world port inputs row now) := by
  unfold WakePump.escalateStalledTask
  split
  · dsimp only
    split
    · exact .of_log rfl (promptCount_append _ _ nofun)
    · exact (writeLedger_spends _ _).after rfl rfl nofun
  · exact .refl pump

theorem escalateEpisode_spends (taskId : TaskId) (kind : EpisodeKind) (since : IsoTimestamp) :
    Spends pump (pump.escalateEpisode world port inputs member taskId kind since) := by
  unfold WakePump.escalateEpisode
  split
  · split
    · split
      · dsimp only
        split
        · exact .of_log rfl (promptCount_append _ _ nofun)
        · exact .of_log rfl (promptCount_append _ _ nofun)
      · exact .refl pump
    · exact .refl pump
  · exact .refl pump

theorem applyTaskDisposition_spends (candidate : MemberObservation) (head : Option TaskRow) (now : IsoTimestamp)
    (disposition : TaskDisposition) :
    Spends pump (pump.applyTaskDisposition world port inputs candidate head now disposition) := by
  unfold WakePump.applyTaskDisposition
  split
  · exact .refl pump
  · split
    · exact escalateEpisode_spends _ _ _
    · exact escalateStalledTask_spends _ _
    · exact emitTaskReminder_spends _ _
    · exact writeLedger_spends _ _
    · exact .refl pump

theorem refusalCheck_spends {count : Nat} (h : pump.refusalCheck world port inputs member = some (count, next)) :
    Spends pump next := by
  unfold WakePump.refusalCheck at h
  split at h
  · split at h
    · cases h
      split
      · exact .of_log rfl (promptCount_append _ _ nofun)
      · exact .refl pump
    · cases h
      exact .refl pump
  · cases h

theorem processTaskCandidate_spends (tick : WakeTick) (now : IsoTimestamp) (candidate : MemberObservation) :
    Spends pump (pump.processTaskCandidate world port inputs tick now candidate) := by
  unfold WakePump.processTaskCandidate
  dsimp only
  split
  · exact (applyTaskDisposition_spends _ _ _ _).of_same rfl rfl
  · split
    · exact .of_log rfl rfl
    next refusals checked hcheck =>
      have hread : Spends pump checked := (refusalCheck_spends hcheck).of_same rfl rfl
      exact hread.trans (applyTaskDisposition_spends _ _ _ _)

/-- The steps of a tick after its poll. -/
def WakeStep.Within : WakeStep → Prop
  | .poll .. => False
  | _ => True

theorem WakeStep.Within.spends {step : WakeStep} (h : step.Within) : Spends pump (step.apply world port pump) := by
  cases step with
  | poll => exact h.elim
  | candidate inputs =>
    simp only [WakeStep.apply]
    split
    · exact (processTaskCandidate_spends _ _ _).of_same rfl rfl
    · exact .refl pump
  | remind | finish | observe | replaceRoster | ledger =>
    simp only [WakeStep.apply]
    repeat' split
    all_goals exact .of_log rfl rfl

theorem run_spends (world : World) (port : RenderPort) (pump : WakePump) (steps : List WakeStep)
    (h : ∀ step ∈ steps, step.Within) : Spends pump (pump.run world port steps) := by
  induction steps generalizing pump with
  | nil => exact .refl pump
  | cons step steps ih =>
    exact (h step mem_cons_self).spends.trans (ih _ (fun step hstep => h step (mem_cons_of_mem _ hstep)))

/-- What a tick prompts after its poll is what its counter says beyond the prompts of the drain. -/
theorem poll_spends {instant : IsoTimestamp} {polls : Polls} {readable : TeamName → Bool} {openMail : MemberKey → Bool}
    {drained : Nat} (hready : pump.clock.nanos ≤ instant.nanos ∧ pump.tick.isNone = true) {steps : List WakeStep}
    (hwin : ∀ step ∈ steps, step.Within) (hdr : drained ≤ herdrMaxPromptsPerTick) :
    drained + (promptCount (pump.run world port (.poll instant polls readable openMail drained :: steps)).log -
      promptCount pump.log) ≤ herdrMaxPromptsPerTick := by
  have hpolled : ((WakeStep.poll instant polls readable openMail drained).apply world port pump).prompted = drained ∧
      ((WakeStep.poll instant polls readable openMail drained).apply world port pump).log = pump.log := by
    simp only [WakeStep.apply, if_pos hready]
    exact ⟨trivial, pollMembers_log _ _ _⟩
  obtain ⟨hcount, hbudget⟩ := run_spends world port
    ((WakeStep.poll instant polls readable openMail drained).apply world port pump) steps hwin
  rw [hpolled.1, hpolled.2] at hcount
  rw [hpolled.1] at hbudget
  rw [WakePump.run, foldl_cons, ← WakePump.run]
  omega

end Budget

/-- Successive ticks go round the eligible members, and no tick has more than sixteen accepted prompts, those of the
mails it drains and of the tasks together. -/
theorem drain_goes_round (eligible : List MemberKey) (hdistinct : eligible.Nodup) (cursor : Nat)
    (ticks : List (Nat → Bool)) :
    (∀ i < (visitedBy eligible cursor ticks).length,
      (visitedBy eligible cursor ticks)[i]? = eligible[(cursor + i) % eligible.length]?) ∧
    (∀ i j, i < j → j < (visitedBy eligible cursor ticks).length →
      (visitedBy eligible cursor ticks)[i]? = (visitedBy eligible cursor ticks)[j]? →
      ∀ member ∈ eligible, ∃ k, i ≤ k ∧ k < j ∧ (visitedBy eligible cursor ticks)[k]? = some member) ∧
    ∀ (world : World) (port : RenderPort) (pump : WakePump) (instant : IsoTimestamp) (polls : Polls)
      (readable : TeamName → Bool) (openMail : MemberKey → Bool) (accepts : Nat → Bool) (steps : List WakeStep),
      pump.clock.nanos ≤ instant.nanos ∧ pump.tick.isNone = true → (∀ step ∈ steps, step.Within) →
      let drain := drainEligible eligible cursor accepts
      let tick := WakeStep.poll instant polls readable openMail drain.prompted :: steps
      drain.visited.countP Prod.snd + (promptCount (pump.run world port tick).log - promptCount pump.log) ≤ 16 := by
  have hempty : ¬ 0 < eligible.length → visitedBy eligible cursor ticks = [] := by
    intro hn
    induction ticks generalizing cursor with
    | nil => rfl
    | cons accepts ticks ih =>
      rw [visitedBy, drainEligible, dif_neg hn]
      exact ih cursor
  have hat : ∀ hn : 0 < eligible.length, ∀ i < (visitedBy eligible cursor ticks).length,
      (visitedBy eligible cursor ticks)[i]? = some (cycled eligible hn (cursor + i)) := by
    intro hn i hi
    rw [visitedBy_eq hn cursor ticks, getElem?_map, getElem?_range hi, Option.map_some]
  refine ⟨fun i hi => ?_, fun i j hij hj heq member hmember => ?_, ?_⟩
  · by_cases hn : 0 < eligible.length
    · rw [hat hn i hi, cycled, get_eq_getElem, getElem?_eq_getElem]
    · rw [hempty hn] at hi
      exact absurd hi (Nat.not_lt_zero _)
  · have hn : 0 < eligible.length := length_pos_of_mem hmember
    rw [hat hn i (by omega), hat hn j hj] at heq
    obtain ⟨k, hik, hkj, hk⟩ := exists_cycled hn hdistinct hij (Option.some.inj heq) hmember
    exact ⟨k, hik, hkj, by rw [hat hn k (by omega), hk]⟩
  · intro world port pump instant polls readable openMail accepts steps hready hwin
    obtain ⟨hcount, hle⟩ := drainEligible_prompted eligible cursor accepts
    dsimp only
    rw [hcount]
    exact poll_spends hready hwin hle

/-- Two members with a cursor that is left over from a longer list: the ticks of a failed and of an accepted prompt. -/
theorem two_members_go_round :
    visitedBy [sampleMemberKey, ⟨sampleTeam, sampleLead⟩] 3 [fun _ => false, fun _ => true] =
        [⟨sampleTeam, sampleLead⟩, sampleMemberKey, ⟨sampleTeam, sampleLead⟩, sampleMemberKey] ∧
      ∀ i < 4, (visitedBy [sampleMemberKey, ⟨sampleTeam, sampleLead⟩] 3 [fun _ => false, fun _ => true])[i]? =
        [sampleMemberKey, ⟨sampleTeam, sampleLead⟩][(3 + i) % 2]? :=
  ⟨by decide, (drain_goes_round [sampleMemberKey, ⟨sampleTeam, sampleLead⟩] (by decide) 3
    [fun _ => false, fun _ => true]).1⟩

end AtmCore
