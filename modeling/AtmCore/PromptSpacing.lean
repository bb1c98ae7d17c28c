import AtmCore.ThreadRuns
import AtmCore.WakeTurns

/-! The distance of the prompts to one member. The pump keeps the instant of the last prompt on the row of the task
that is at the head of the member's queue, and looks at that row only. As long as a task that was prompted within the
interval stays at the head, and no queue gets another head while a tick is under way, two prompts are an interval
apart. -/

namespace AtmCore

open List Option

def promptsTo (member : MemberKey) (log : List WakeEvent) : List IsoTimestamp :=
  log.filterMap (fun event =>
    match event with
    | .prompted other instant => if other = member then some instant else none
    | _ => none)

/-- The task at the head of the member's queue was reminded at the instant or later. -/
def Reminded (db : Db) (member : MemberKey) (instant : IsoTimestamp) : Prop :=
  ∃ row last, headTask db member = some row ∧ row.lastRemindedAt = some last ∧ instant.nanos ≤ last.nanos

/-- A write of the ledger leaves a task that was reminded within the interval at the head of its queue, or puts one
there that was reminded no earlier; and while a tick is under way it leaves the queues the tick has still to look at
their heads. -/
def WakeStep.KeepsHeads (world : World) (pump : WakePump) : WakeStep → Prop
  | .ledger instant step =>
    (∀ member row last, headTask pump.db member = some row → row.lastRemindedAt = some last →
      intervalPassed last instant = false → Reminded (step.apply world pump.db) member last) ∧
    ∀ tick, pump.tick = some tick → ∀ candidate ∈ tick.remaining,
      (headTask (step.apply world pump.db) candidate.member).map TaskRow.taskId =
        (headTask pump.db candidate.member).map TaskRow.taskId
  | _ => True

def HeadsKept (world : World) (port : RenderPort) : List WakeStep → WakePump → Prop
  | [], _ => True
  | step :: steps, pump => step.KeepsHeads world pump ∧ HeadsKept world port steps (step.apply world port pump)

def WakeEvent.isLedgerFailure : WakeEvent → Bool
  | .ledgerFailed _ => true
  | _ => false

/-- Every bookkeeping write of the run gets through. -/
def LedgerWritten (world : World) (port : RenderPort) : List WakeStep → WakePump → Prop
  | [], _ => True
  | step :: steps, pump => (step.apply world port pump).log.any WakeEvent.isLedgerFailure = false ∧
    LedgerWritten world port steps (step.apply world port pump)

section Instants

variable {first second third : IsoTimestamp}

theorem intervalPassed_mono (h : intervalPassed first second = true) (hlater : second.nanos ≤ third.nanos) :
    intervalPassed first third = true := by
  simp only [intervalPassed, decide_eq_true_eq] at h ⊢
  omega

theorem intervalPassed_of_le (h : intervalPassed second third = true) (hearlier : first.nanos ≤ second.nanos) :
    intervalPassed first third = true := by
  have hpass := of_decide_eq_true h
  refine decide_eq_true ?_
  simp only [IsoTimestamp.addMillis] at hpass ⊢
  omega

end Instants

section Prompts

variable {member other : MemberKey} {log events : List WakeEvent} {instant : IsoTimestamp}

theorem promptsTo_append :
    promptsTo member (log ++ events) = promptsTo member log ++ promptsTo member events := filterMap_append

theorem promptsTo_eq_nil (h : ∀ member instant, WakeEvent.prompted member instant ∉ events) :
    promptsTo member events = [] := by
  rw [promptsTo, filterMap_eq_nil_iff]
  intro event hev
  cases event with
  | prompted other instant => exact absurd hev (h other instant)
  | ledgerFailed | escalated => rfl

theorem Mailed.promptsTo {pump mailed : WakePump} (h : Mailed pump mailed) (member : MemberKey) :
    AtmCore.promptsTo member mailed.log = AtmCore.promptsTo member pump.log := by
  obtain ⟨events, hlog, hnone⟩ := h.log
  rw [hlog, promptsTo_append, promptsTo_eq_nil hnone, append_nil]

end Prompts

variable {outcome : ReminderOutcome}

section Marked

variable {write : ReminderWrite} {member other : MemberKey} {taskId : TaskId} {db db' : Db} {row : TaskRow}
  {instant now : IsoTimestamp}

theorem headTask_congr (h : SameLedger db db') : headTask db' member = headTask db member := by
  rw [headTask, headTask, openTasksByMember, openTasksByMember, h.tasks]

theorem decodeRow_fields {columns : TaskColumns} (h : decodeRow columns = .ok row) :
    row.team = columns.team ∧ row.taskId = columns.taskId ∧ row.assignee = columns.assignee ∧
      row.lastRemindedAt = columns.lastRemindedAt := by
  have hcore := (decodes_of_decodeRow h).core
  exact ⟨congrArg TaskColumns.team hcore, congrArg TaskColumns.taskId hcore, congrArg TaskColumns.assignee hcore,
    congrArg TaskColumns.lastRemindedAt hcore⟩

theorem headTask_member (h : headTask db member = some row) : row.team = member.team ∧ row.assignee = member.agent := by
  obtain ⟨-, columns, hcols, hdec⟩ := headTask_eq_some_iff.mp h
  obtain ⟨-, hteam, hto, -⟩ := mem_queueColumns (mem_of_mem_head? hcols)
  obtain ⟨hrowTeam, -, hrowAssignee, -⟩ := decodeRow_fields hdec
  exact ⟨hrowTeam.trans hteam, hrowAssignee.trans hto⟩

/-- A bookkeeping write for one member does not touch the queue of another. -/
theorem Marks.headTask_other (h : Marks write member taskId db db') (hother : other ≠ member)
    (hhead : AtmCore.headTask db other = some row) : AtmCore.headTask db' other = some row := by
  obtain ⟨columns, marked, hmem, hdec, hmark, hhead'⟩ := h.headTask hhead
  obtain ⟨-, hteam, hto, -⟩ := mem_queueColumns hmem
  have hsame : write.on member taskId columns = columns := by
    refine if_neg (fun hfor => hother ?_)
    have hmemberTeam : columns.team = member.team := congrArg Prod.fst hfor.1
    cases other
    cases member
    simp_all
  rw [hsame, hdec] at hmark
  rw [hhead', ← Except.ok.inj hmark]

theorem Marks.reminded_of_notified {lead : AgentName} {messageId : AtmMessageId}
    (h : Marks (.leadNotified now lead messageId) member taskId db db') (hrem : Reminded db other instant) :
    Reminded db' other instant := by
  obtain ⟨row, last, hhead, hlast, hle⟩ := hrem
  obtain ⟨columns, marked, -, hdec, hmark, hhead'⟩ := h.headTask hhead
  refine ⟨marked, last, hhead', ?_, hle⟩
  rw [(decodeRow_fields hmark).2.2.2, ← hlast, (decodeRow_fields hdec).2.2.2]
  rcases ReminderWrite.on_eq_or (.leadNotified now lead messageId) with heq | heq
  · rw [heq]
    rfl
  · rw [heq]

theorem Marks.reminded_of_reminded (h : Marks (.reminded now outcome) member taskId db db')
    (hnow : instant.nanos ≤ now.nanos) (hrem : Reminded db other instant) : Reminded db' other instant := by
  obtain ⟨row, last, hhead, hlast, hle⟩ := hrem
  obtain ⟨columns, marked, -, hdec, hmark, hhead'⟩ := h.headTask hhead
  have hmarkedLast := (decodeRow_fields hmark).2.2.2
  rcases ReminderWrite.on_eq_or (.reminded now outcome) with heq | heq
  · exact ⟨marked, now, hhead', by rw [hmarkedLast, heq]; rfl, hnow⟩
  · exact ⟨marked, last, hhead', by rw [hmarkedLast, heq, ← (decodeRow_fields hdec).2.2.2, hlast], hle⟩

/-- After a reminder of the head of a queue, the head was reminded now. -/
theorem Marks.reminded_now (h : Marks (.reminded now outcome) member taskId db db')
    (hhead : AtmCore.headTask db member = some row) (htask : row.taskId = taskId) (hle : instant.nanos ≤ now.nanos) :
    Reminded db' member instant := by
  obtain ⟨columns, marked, hmem, hdec, hmark, hhead'⟩ := h.headTask hhead
  obtain ⟨-, hteam, hto, -⟩ := mem_queueColumns hmem
  have hfor : columns.key = (member.team, taskId) ∧ columns.assignee = member.agent := by
    refine ⟨?_, hto⟩
    rw [TaskColumns.key, hteam, ← htask, (decodeRow_fields hdec).2.1]
  refine ⟨marked, now, hhead', ?_, hle⟩
  rw [(decodeRow_fields hmark).2.2.2, ReminderWrite.on, if_pos hfor]
  rfl

end Marked

/-- What a tick that is under way knows of the prompts so far: it looks at each member once, the heads it has read are
still the heads, and they carry the instants of the prompts that are not an interval ago. -/
structure TickSound (pump : WakePump) (tick : WakeTick) : Prop where
  nodup : (tick.remaining.map MemberObservation.member).Nodup
  now : ∀ now, tick.now = some now → now.nanos ≤ pump.clock.nanos ∧
    ∀ member, ∀ instant ∈ promptsTo member pump.log, instant.nanos ≤ now.nanos
  head : ∀ candidate ∈ tick.remaining, ∀ row, (tick.openTasks candidate.member).head? = some row →
    (row.team = candidate.member.team ∧ row.assignee = candidate.member.agent) ∧
    (headTask pump.db candidate.member).map TaskRow.taskId = some row.taskId ∧
    ∀ instant ∈ promptsTo candidate.member pump.log, intervalPassed instant (tick.now.getD pump.clock) = true ∨
      ∃ last, row.lastRemindedAt = some last ∧ instant.nanos ≤ last.nanos
  since : ∀ candidate ∈ tick.remaining, candidate.state = .active → ∀ since, candidate.stateChangedAt = some since →
    ∀ instant ∈ promptsTo candidate.member pump.log, instant.nanos ≤ since.nanos

/-- A member that is active has been prompted before it became so. -/
def ActiveSince (roster : MemberKey → Option MemberRuntime) (log : List WakeEvent) : Prop :=
  ∀ member runtime since, roster member = some runtime → runtime.state = .active → runtime.stateChangedAt = some since →
    ∀ instant ∈ promptsTo member log, instant.nanos ≤ since.nanos

structure Spaced (pump : WakePump) : Prop where
  spaced : ∀ member, (promptsTo member pump.log).Pairwise (fun earlier later => intervalPassed earlier later = true)
  past : ∀ member, ∀ instant ∈ promptsTo member pump.log, instant.nanos ≤ pump.clock.nanos
  active : ActiveSince pump.roster pump.log
  reminded : ∀ member, ∀ instant ∈ promptsTo member pump.log,
    intervalPassed instant pump.clock = true ∨ Reminded pump.db member instant
  tick : ∀ tick, pump.tick = some tick → TickSound pump tick

variable {member : MemberKey} {instant now : IsoTimestamp} {roster : MemberKey → Option MemberRuntime}
  {tick : WakeTick}

section Steps

variable {world : World} {port : RenderPort} {pump mailed : WakePump} {log : List WakeEvent}

theorem Spaced.start (db : Db) (roster : MemberKey → Option MemberRuntime) (clock : IsoTimestamp) :
    Spaced (WakePump.start db roster clock) where
  spaced := fun _ => List.Pairwise.nil
  past := nofun
  active := nofun
  reminded := nofun
  tick := nofun

/-- An observation at an instant after all prompts. -/
theorem ActiveSince.observed
    (h : ActiveSince roster log) {runtime : MemberRuntime} (hrt : roster member = some runtime)
    (hpast : ∀ prompt ∈ promptsTo member log, prompt.nanos ≤ instant.nanos) (next : Option RuntimeMemberState) :
    ∀ since, (applyRuntimeObservation next instant runtime).state = .active →
      (applyRuntimeObservation next instant runtime).stateChangedAt = some since →
      ∀ prompt ∈ promptsTo member log, prompt.nanos ≤ since.nanos := by
  intro since hact hsince prompt hpr
  cases next with
  | none => exact h member runtime since hrt hact hsince prompt hpr
  | some state =>
    by_cases hchanged : state = runtime.state
    · have hsame : applyRuntimeObservation (some state) instant runtime = runtime := by
        rw [applyRuntimeObservation, if_neg (not_not.mpr hchanged), hchanged]
      rw [hsame] at hact hsince
      exact h member runtime since hrt hact hsince prompt hpr
    · rw [applyRuntimeObservation, if_pos hchanged] at hsince
      exact some.inj hsince ▸ hpast prompt hpr

theorem ActiveSince.update (h : ActiveSince roster log) (member : MemberKey) {next : Option MemberRuntime}
    (hnext : ∀ runtime since, next = some runtime → runtime.state = .active → runtime.stateChangedAt = some since →
      ∀ prompt ∈ promptsTo member log, prompt.nanos ≤ since.nanos) :
    ActiveSince (Function.update roster member next) log := by
  intro other runtime since hrt hact hsince
  by_cases hsame : other = member
  · subst hsame
    rw [Function.update_self] at hrt
    exact hnext runtime since hrt hact hsince
  · rw [Function.update_of_ne hsame] at hrt
    exact h other runtime since hrt hact hsince

theorem TickSound.later (h : TickSound pump tick) {next : WakePump} (hlog : next.log = pump.log)
    (hclock : pump.clock.nanos ≤ next.clock.nanos)
    (hheads : ∀ candidate ∈ tick.remaining, ∀ taskId, (headTask pump.db candidate.member).map TaskRow.taskId =
      some taskId →
      (headTask next.db candidate.member).map TaskRow.taskId = some taskId) : TickSound next tick := by
  refine ⟨h.nodup, fun now hnow => ?_, fun candidate hcand row hrow => ?_, ?_⟩
  · rw [hlog]
    obtain ⟨hle, hprs⟩ := h.now now hnow
    exact ⟨hle.trans hclock, hprs⟩
  · obtain ⟨hm, htask, hdue⟩ := h.head candidate hcand row hrow
    refine ⟨hm, hheads candidate hcand _ htask, ?_⟩
    rw [hlog]
    intro instant hinstant
    rcases hdue instant hinstant with hpass | hlast
    · refine .inl (intervalPassed_mono hpass ?_)
      cases tick.now with
      | none => exact hclock
      | some now => exact le_refl _
    · exact .inr hlast
  · rw [hlog]
    exact h.since

section

variable (h : Spaced pump)
include h

section

variable (hclock : pump.clock.nanos ≤ instant.nanos)
include hclock

theorem Spaced.past_later (member : MemberKey) : ∀ prompt ∈ promptsTo member pump.log, prompt.nanos ≤ instant.nanos :=
  fun prompt hpr => (h.past member prompt hpr).trans hclock

theorem Spaced.reminded_later (member : MemberKey) :
    ∀ prompt ∈ promptsTo member pump.log, intervalPassed prompt instant = true ∨ Reminded pump.db member prompt :=
  fun prompt hpr => (h.reminded member prompt hpr).imp (fun hpass => intervalPassed_mono hpass hclock) id

theorem Spaced.ledger {step : LifeStep} (hkeeps : WakeStep.KeepsHeads world pump (.ledger instant step)) :
    Spaced { pump with clock := instant, db := step.apply world pump.db } where
  spaced := h.spaced
  past := h.past_later hclock
  active := h.active
  reminded := by
    intro member prompt hpr
    rcases h.reminded member prompt hpr with hpass | ⟨row, last, hhead, hlast, hle⟩
    · exact .inl (intervalPassed_mono hpass hclock)
    · by_cases hpass : intervalPassed last instant = true
      · exact .inl (intervalPassed_of_le hpass hle)
      · obtain ⟨row', last', hhead', hlast', hle'⟩ := hkeeps.1 member row last hhead hlast (Bool.not_eq_true _ ▸ hpass)
        exact .inr ⟨row', last', hhead', hlast', hle.trans hle'⟩
  tick := fun tick htick => (h.tick tick htick).later rfl hclock
    (fun candidate hcand _ htask => (hkeeps.2 tick htick candidate hcand).trans htask)

theorem Spaced.observe (member : MemberKey) (next : Option RuntimeMemberState) : Spaced { pump with
      clock := instant
      roster := Function.update pump.roster member
        ((pump.roster member).map (applyRuntimeObservation next instant)) } where
  spaced := h.spaced
  past := h.past_later hclock
  active := by
    refine h.active.update member (fun runtime since hnext hact hsince => ?_)
    obtain ⟨before, hbefore, rfl⟩ := map_eq_some_iff.mp hnext
    exact h.active.observed hbefore (h.past_later hclock member) next since hact hsince
  reminded := h.reminded_later hclock
  tick := fun tick htick => (h.tick tick htick).later rfl hclock (fun _ _ _ htask => htask)

end

theorem Spaced.replaceRoster (team : TeamName) (agents : List AgentName) :
    Spaced { pump with roster := replaceMembers team agents pump.roster } where
  spaced := h.spaced
  past := h.past
  active := by
    intro member runtime since hrt hact hsince
    dsimp only [replaceMembers] at hrt
    split at hrt
    · split at hrt
      · cases hbefore : pump.roster member with
        | none =>
          rw [hbefore] at hrt
          cases hrt
          cases hsince
        | some before =>
          rw [hbefore] at hrt
          cases hrt
          exact h.active member before since hbefore hact hsince
      · cases hrt
    · exact h.active member runtime since hrt hact hsince
  reminded := h.reminded
  tick := fun tick htick => (h.tick tick htick).later rfl (le_refl _) (fun _ _ _ htask => htask)

theorem Spaced.finish : Spaced { pump with tick := none } where
  spaced := h.spaced
  past := h.past
  active := h.active
  reminded := h.reminded
  tick := nofun

theorem Spaced.remind (htick : pump.tick = some tick)
    (hclock : pump.clock.nanos ≤ now.nanos) (hnone : tick.now = none) :
    Spaced { pump with clock := now, tick := some { tick with now := some now } } where
  spaced := h.spaced
  past := h.past_later hclock
  active := h.active
  reminded := h.reminded_later hclock
  tick := by
    intro next hnext
    cases hnext
    have hs := h.tick tick htick
    refine ⟨hs.nodup, fun now' hnow => ?_, fun candidate hcand row hrow => ?_, hs.since⟩
    · cases hnow
      exact ⟨le_refl _, h.past_later hclock⟩
    · obtain ⟨hm, htask, hdue⟩ := hs.head candidate hcand row hrow
      rw [hnone] at hdue
      exact ⟨hm, htask, fun prompt hpr =>
        (hdue prompt hpr).imp (fun hpass => intervalPassed_mono hpass hclock) id⟩

end

/-- What the polls leave: the roster at the instant of the poll, and observations of it. -/
structure Polled (instant : IsoTimestamp) (members : List MemberKey) (pump : WakePump)
    (result : WakePump × List MemberObservation) : Prop where
  frame : result.1.db = pump.db ∧ result.1.log = pump.log ∧ result.1.clock = pump.clock ∧ result.1.tick = pump.tick
  active : ActiveSince result.1.roster pump.log
  members : (result.2.map MemberObservation.member).Sublist members
  since : ∀ observation ∈ result.2, observation.state = .active → ∀ since, observation.stateChangedAt = some since →
    ∀ prompt ∈ promptsTo observation.member pump.log, prompt.nanos ≤ since.nanos

theorem pollMember_polled {poll : MemberKey × PollResult} (hact : ActiveSince pump.roster pump.log)
    (hpast : ∀ member, ∀ prompt ∈ promptsTo member pump.log, prompt.nanos ≤ instant.nanos) :
    Polled instant [poll.1] pump ((pollMember instant poll pump).1, (pollMember instant poll pump).2.toList) := by
  rw [pollMember.eq_def]
  split
  · next runtime hres hrt =>
    refine ⟨⟨rfl, rfl, rfl, rfl⟩, hact, List.Sublist.refl _, fun observation hobs hstate since hsince => ?_⟩
    obtain rfl := mem_singleton.mp hobs
    exact hact poll.1 runtime since hrt hstate hsince
  · exact ⟨⟨rfl, rfl, rfl, rfl⟩, hact, nil_sublist _, nofun⟩
  · next status runtime hres hrt =>
    have hobserved := fun state => hact.observed hrt (hpast poll.1) (some state)
    refine ⟨⟨rfl, rfl, rfl, rfl⟩, hact.update poll.1 (fun next since hnext hstate hsince => ?_), List.Sublist.refl _,
      fun observation hobs hstate since hsince => ?_⟩
    · cases hnext
      exact hobserved _ since hstate hsince
    · obtain rfl := mem_singleton.mp hobs
      exact hobserved _ since hstate hsince
  · exact ⟨⟨rfl, rfl, rfl, rfl⟩, hact, nil_sublist _, nofun⟩
  · exact ⟨⟨rfl, rfl, rfl, rfl⟩, hact, nil_sublist _, nofun⟩

theorem pollMembers_polled {polls : List (MemberKey × PollResult)} (hact : ActiveSince pump.roster pump.log)
    (hpast : ∀ member, ∀ prompt ∈ promptsTo member pump.log, prompt.nanos ≤ instant.nanos) :
    Polled instant (polls.map Prod.fst) pump (pollMembers instant polls pump) := by
  induction polls generalizing pump with
  | nil => exact ⟨⟨rfl, rfl, rfl, rfl⟩, hact, List.Sublist.refl _, nofun⟩
  | cons poll polls ih =>
    obtain ⟨⟨hdb, hlog, hclock, htick⟩, hfirst, hm, hsince⟩ := pollMember_polled hact hpast
    rw [pollMembers]
    generalize pollMember instant poll pump = result at hdb hlog hclock htick hfirst hm hsince ⊢
    obtain ⟨next, observation⟩ := result
    rw [← hlog] at hfirst hpast
    obtain ⟨⟨hdb', hlog', hclock', htick'⟩, hrest, hms, hsince'⟩ := ih hfirst hpast
    refine ⟨⟨hdb'.trans hdb, hlog'.trans hlog, hclock'.trans hclock, htick'.trans htick⟩, hlog ▸ hrest, ?_, ?_⟩
    · rw [map_append]
      exact hm.append hms
    · intro entry hentry
      rcases mem_append.mp hentry with hentry | hentry
      · exact hsince entry hentry
      · exact hlog ▸ hsince' entry hentry

theorem headTask_of_read {readable : TeamName → Bool} {db : Db} {row : TaskRow}
    (h : (openTasksByMember readable db member).head? = some row) : headTask db member = some row := by
  rw [headTask, openTasksByMember]
  rw [openTasksByMember] at h
  split at h
  · next rows hrows =>
    split at h
    · exact h
    · cases h
  · cases h

variable (h : Spaced pump)
include h

theorem Spaced.poll (hclock : pump.clock.nanos ≤ instant.nanos) (polls : Polls)
    (readable : TeamName → Bool) (openMail : MemberKey → Bool) (drained : Nat) {polled : WakePump}
    {observations : List MemberObservation}
    (hpolled : pollMembers instant polls.results { pump with clock := instant } = (polled, observations)) :
    Spaced { polled with
      prompted := drained
      tick := some ⟨openTasksByMember readable polled.db, openMail, none, observations⟩ } := by
  have hres : Polled instant (polls.results.map Prod.fst) { pump with clock := instant }
      (pollMembers instant polls.results { pump with clock := instant }) :=
    pollMembers_polled h.active (h.past_later hclock)
  rw [hpolled] at hres
  obtain ⟨⟨hdb, hlog, hat, -⟩, hact, hms, hsince⟩ := hres
  have hrem : ∀ member, ∀ prompt ∈ promptsTo member polled.log,
      intervalPassed prompt polled.clock = true ∨ Reminded polled.db member prompt := by
    rw [hlog, hat, hdb]
    exact h.reminded_later hclock
  refine ⟨?_, ?_, ?_, hrem, ?_⟩
  · dsimp only
    rw [hlog]
    exact h.spaced
  · dsimp only
    rw [hlog, hat]
    exact h.past_later hclock
  · dsimp only
    rw [hlog]
    exact hact
  · intro tick htick
    cases htick
    refine ⟨polls.nodup.sublist hms, nofun, fun candidate _ row hrow => ?_, ?_⟩
    · have hhead := headTask_of_read hrow
      refine ⟨headTask_member hhead, by rw [hhead, map_some], fun prompt hpr => ?_⟩
      refine (hrem candidate.member prompt hpr).imp id ?_
      rintro ⟨other, last, hother, hlast, hle⟩
      obtain rfl := some.inj (hhead.symm.trans hother)
      exact ⟨last, hlast, hle⟩
    · dsimp only
      rw [hlog]
      exact hsince

theorem Spaced.of_mailed (hmail : Mailed pump mailed) : Spaced mailed := by
  refine ⟨fun member => ?_, fun member => ?_, ?_, fun member => ?_, fun tick htick => ?_⟩
  · rw [hmail.promptsTo]
    exact h.spaced member
  · rw [hmail.promptsTo, hmail.clock]
    exact h.past member
  · rw [ActiveSince, hmail.roster]
    intro member
    rw [hmail.promptsTo]
    exact h.active member
  · rw [hmail.promptsTo, hmail.clock]
    intro prompt hpr
    refine (h.reminded member prompt hpr).imp id ?_
    rintro ⟨row, last, hhead, hlast⟩
    exact ⟨row, last, (headTask_congr hmail.ledger).trans hhead, hlast⟩
  · obtain ⟨hnd, hnow, hhead, hsince⟩ := h.tick tick (hmail.tick ▸ htick)
    refine ⟨hnd, ?_, ?_, ?_⟩
    · simpa only [hmail.promptsTo, hmail.clock] using hnow
    · simpa only [hmail.promptsTo, hmail.clock, headTask_congr hmail.ledger] using hhead
    · simpa only [hmail.promptsTo] using hsince

/-- A bookkeeping write for a member that the tick does not look at again. -/
theorem Spaced.marked {write : ReminderWrite} {taskId : TaskId} {db : Db}
    (hmarks : Marks write member taskId pump.db db)
    (hown : ∀ prompt ∈ promptsTo member pump.log, intervalPassed prompt pump.clock = true ∨ Reminded db member prompt)
    (hremains : ∀ tick, pump.tick = some tick → ∀ candidate ∈ tick.remaining, candidate.member ≠ member) :
    Spaced { pump with db := db } where
  spaced := h.spaced
  past := h.past
  active := h.active
  reminded := by
    intro other prompt hpr
    by_cases hsame : other = member
    · subst hsame
      exact hown prompt hpr
    · refine (h.reminded other prompt hpr).imp id ?_
      rintro ⟨row, last, hhead, hlast, hle⟩
      exact ⟨row, last, hmarks.headTask_other hsame hhead, hlast, hle⟩
  tick := by
    intro tick htick
    refine (h.tick tick htick).later rfl (le_refl _) (fun candidate hcand taskId htask => ?_)
    obtain ⟨row, hhead, rfl⟩ := map_eq_some_iff.mp htask
    rw [hmarks.headTask_other (hremains tick htick candidate hcand) hhead, map_some]

/-- A prompt an interval after the others, to an idle member whose head was reminded. -/
theorem Spaced.prompt {member : MemberKey} {now : IsoTimestamp} (count : Nat)
    (hap : ∀ prompt ∈ promptsTo member pump.log, intervalPassed prompt now = true)
    (hnow : now.nanos ≤ pump.clock.nanos) (hidle : pump.stillIdle member = true) (hrem : Reminded pump.db member now)
    (htick : ∀ tick, pump.tick = some tick → tick.now = some now ∧
      ∀ candidate ∈ tick.remaining, candidate.member ≠ member) :
    Spaced { pump with prompted := count, log := pump.log ++ [.prompted member now] } := by
  have hprs : ∀ other, promptsTo other (pump.log ++ [.prompted member now]) =
      promptsTo other pump.log ++ if member = other then [now] else [] := by
    intro other
    rw [promptsTo_append]
    by_cases hsame : member = other <;> simp [promptsTo, hsame]
  have hother : ∀ other, other ≠ member → promptsTo other (pump.log ++ [.prompted member now]) =
      promptsTo other pump.log := by
    intro other hne
    rw [hprs, if_neg hne.symm, append_nil]
  have hall : ∀ other {P : IsoTimestamp → Prop}, (∀ prompt ∈ promptsTo other pump.log, P prompt) →
      (member = other → P now) → ∀ prompt ∈ promptsTo other (pump.log ++ [.prompted member now]), P prompt := by
    intro other P hold hnew prompt hpr
    rw [hprs] at hpr
    rcases mem_append.mp hpr with hpr | hpr
    · exact hold prompt hpr
    · split at hpr
      · next hsame => exact mem_singleton.mp hpr ▸ hnew hsame
      · cases hpr
  refine ⟨fun other => ?_, fun other => ?_, fun other runtime since hrt hact hsince => ?_, fun other => ?_, ?_⟩
  · by_cases hsame : other = member
    · subst hsame
      rw [hprs, if_pos rfl, pairwise_append]
      refine ⟨h.spaced other, pairwise_singleton _ _, fun prompt hpr later hlater => ?_⟩
      rw [mem_singleton.mp hlater]
      exact hap prompt hpr
    · dsimp only
      rw [hother other hsame]
      exact h.spaced other
  · exact hall other (h.past other) (fun _ => hnow)
  · refine hall other (h.active other runtime since hrt hact hsince) (fun hsame => ?_)
    subst hsame
    rw [WakePump.stillIdle, hrt, any_some, hact] at hidle
    cases hidle
  · exact hall other (h.reminded other) (fun hsame => .inr (hsame ▸ hrem))
  · intro tick hpend
    obtain ⟨hnd, hnows, hheads, hsinces⟩ := h.tick tick hpend
    obtain ⟨hat, hremains⟩ := htick tick hpend
    refine ⟨hnd, fun now' hnow' => ?_, fun candidate hcand => ?_, fun candidate hcand => ?_⟩
    · obtain rfl := some.inj (hat.symm.trans hnow')
      refine ⟨hnow, fun other prompt hpr => ?_⟩
      rw [hprs] at hpr
      rcases mem_append.mp hpr with hpr | hpr
      · exact (hnows now hat).2 other prompt hpr
      · split at hpr
        · rw [mem_singleton.mp hpr]
        · cases hpr
    · dsimp only
      rw [hother _ (hremains candidate hcand)]
      exact hheads candidate hcand
    · dsimp only
      rw [hother _ (hremains candidate hcand)]
      exact hsinces candidate hcand

/-- The turn of the first member of the tick, if its ledger writes get through. -/
theorem Spaced.turn {inputs : TurnInputs} {first : MemberObservation} {next : WakePump} (hat : tick.now = some now)
    (htick : pump.tick = some { tick with remaining := first :: tick.remaining })
    (hnext : { pump with tick := some tick }.processTaskCandidate world port inputs tick now first = next)
    (hfail : ∀ member, WakeEvent.ledgerFailed member ∉ next.log) : Spaced next := by
  obtain ⟨hnd, hnows, hheads, hsinces⟩ := h.tick _ htick
  obtain ⟨hfirst, hnd⟩ := nodup_cons.mp hnd
  have hremains : ∀ candidate ∈ tick.remaining, candidate.member ≠ first.member :=
    fun candidate hcand hsame => hfirst (hsame ▸ List.mem_map_of_mem hcand)
  obtain ⟨hnow, hbefore⟩ := hnows now hat
  -- the tick goes on without the first member
  have hrest : Spaced { pump with tick := some tick } := by
    refine ⟨h.spaced, h.past, h.active, h.reminded, fun tick hpend => ?_⟩
    cases hpend
    exact ⟨hnd, hnows, fun candidate hcand => hheads candidate (mem_cons_of_mem _ hcand),
      fun candidate hcand => hsinces candidate (mem_cons_of_mem _ hcand)⟩
  obtain ⟨mailed, hmail, hturn⟩ := turn_cases hnext hfail
  have hspaced := hrest.of_mailed hmail
  have hpend : ∀ tick, mailed.tick = some tick → tick.now = some now ∧
      ∀ candidate ∈ tick.remaining, candidate.member ≠ first.member := by
    intro tick hpend
    rw [hmail.tick] at hpend
    cases hpend
    exact ⟨hat, hremains⟩
  have hother := fun tick hpend' => (hpend tick hpend').2
  have hhead : ∀ row, (tick.openTasks first.member).head? = some row → _ := hheads first mem_cons_self
  have hprs := hmail.promptsTo first.member
  have hclock : mailed.clock = pump.clock := hmail.clock
  cases hturn with
  | quiet => exact hspaced
  | reset row event db hrow hact hsustained hrun =>
    refine hspaced.marked (.of_run hrun nofun) (fun prompt hpr => .inl ?_) hother
    rw [hprs] at hpr
    cases hsince : first.stateChangedAt with
    | none =>
      rw [hsince] at hsustained
      cases hsustained
    | some since =>
      rw [hsince] at hsustained
      have hle := hsinces first mem_cons_self hact since hsince prompt hpr
      exact intervalPassed_mono (intervalPassed_of_le hsustained hle) (hclock ▸ hnow)
  | audited row current lead messageId event db hrow hcur hzero hrun =>
    obtain ⟨⟨hteam, hto⟩, -, -⟩ := hhead row hrow
    have hm : (⟨row.team, row.assignee⟩ : MemberKey) = first.member := by rw [hteam, hto]
    rw [hm] at hrun
    rw [hteam] at hcur
    have hmarks := Marks.of_notified hrun hcur hzero
    exact hspaced.marked hmarks (fun prompt hpr =>
      (hspaced.reminded first.member prompt hpr).imp id hmarks.reminded_of_notified) hother
  | unrenderable row event db hrow hrun =>
    have hmarks := Marks.of_run hrun nofun
    refine hspaced.marked hmarks (fun prompt hpr =>
      (hspaced.reminded first.member prompt hpr).imp id (hmarks.reminded_of_reminded ?_)) hother
    exact hbefore first.member prompt (hprs ▸ hpr)
  | prompted row event db hrow hdue hidle hrun =>
    obtain ⟨-, htask, hlasts⟩ := hhead row hrow
    have hmarks := Marks.of_run hrun nofun
    obtain ⟨head, hheadTask, htid⟩ := map_eq_some_iff.mp
      ((congrArg (Option.map TaskRow.taskId) (headTask_congr hmail.ledger)).trans htask)
    have hmark := hspaced.marked hmarks (fun prompt hpr =>
      .inr (hmarks.reminded_now hheadTask htid (hbefore first.member prompt (hprs ▸ hpr)))) hother
    refine hmark.prompt (mailed.prompted + 1) (fun prompt hpr => ?_) (hclock ▸ hnow) hidle
      (hmarks.reminded_now hheadTask htid (le_refl _)) hpend
    rw [hprs] at hpr
    rcases hlasts prompt hpr with hpass | ⟨last, hlast, hle⟩
    · simpa only [hat, getD_some] using hpass
    · rw [reminderDue, hlast] at hdue
      exact intervalPassed_of_le hdue hle

theorem Spaced.step (step : WakeStep) (hkeeps : step.KeepsHeads world pump)
    (hwr : ∀ member, WakeEvent.ledgerFailed member ∉ (step.apply world port pump).log) :
    Spaced (step.apply world port pump) := by
  cases step with
  | poll instant polls readable openMail drained =>
    rw [WakeStep.apply]
    split
    · next hready => exact h.poll hready.1 polls readable openMail drained rfl
    · exact h
  | remind now =>
    rw [WakeStep.apply]
    split
    · next tick htick =>
      split
      · next hready => exact h.remind htick hready.1 (isNone_iff_eq_none.mp hready.2)
      · exact h
    · exact h
  | candidate inputs =>
    rw [WakeStep.apply] at hwr ⊢
    split
    · next openTasks openMail now first remaining htick =>
      rw [htick] at hwr
      exact h.turn (by rfl) htick rfl hwr
    · exact h
  | finish => exact h.finish
  | observe instant member next =>
    rw [WakeStep.apply]
    split
    · next hclock => exact h.observe hclock member next
    · exact h
  | replaceRoster team agents => exact h.replaceRoster team agents
  | ledger instant step =>
    rw [WakeStep.apply]
    split
    · next hclock => exact h.ledger hclock hkeeps
    · exact h

theorem Spaced.run (steps : List WakeStep) (hkept : HeadsKept world port steps pump)
    (hwr : LedgerWritten world port steps pump) : Spaced (pump.run world port steps) := by
  induction steps generalizing pump with
  | nil => exact h
  | cons step steps ih =>
    refine ih (h.step step hkept.1 (fun member hm => ?_)) hkept.2 hwr.2
    have hnone := List.any_eq_false.mp hwr.1 _ hm
    exact hnone rfl

end Steps

/-- In every run of the pump, among any steps of the ledger and the roster that keep the heads of the queues as said,
two task prompts to one member are at least a reminder interval apart. -/
theorem prompts_spaced (world : World) (port : RenderPort) (db : Db) (roster : MemberKey → Option MemberRuntime)
    (clock : IsoTimestamp) (steps : List WakeStep) (hkept : HeadsKept world port steps (.start db roster clock))
    (hwritten : LedgerWritten world port steps (.start db roster clock)) (member : MemberKey) :
    (promptsTo member ((WakePump.start db roster clock).run world port steps).log).Pairwise
      (fun earlier later => intervalPassed earlier later = true) :=
  ((Spaced.start db roster clock).run steps hkept hwritten).spaced member

def sampleMemberKey : MemberKey := ⟨sampleTeam, sampleMember⟩

/-- Every read, prompt and write gets through, and there is nobody to escalate to. -/
def sampleTurn : TurnInputs where
  refusalsReadable := true
  eventsReadable := true
  taskReadable := true
  dispatch := .ok true
  emitterSelected := true
  emission := .ok ()
  order := .natural
  ledgerError := none
  freshId := ⟨2000, by decide⟩
  escalation := ⟨.ok ⟨[], []⟩, .ok [], true, fun _ => .ok ⟨0⟩, fun _ => .error (.validation "no route"), ""⟩
  refusalEscalation := ⟨.ok ⟨[], []⟩, .ok [], true, fun _ => .ok ⟨0⟩, fun _ => .error (.validation "no route"), ""⟩

def samplePolls : Polls := ⟨[(sampleMemberKey, .rosterOnly)], nodup_singleton _⟩

/-- One tick at an instant, over one member that the roster knows. -/
def sampleTick (instant : IsoTimestamp) : List WakeStep :=
  [.poll instant samplePolls (fun _ => true) (fun _ => false) 0,
    .remind instant, .candidate sampleTurn, .finish]

/-- A pump over a database where the member is idle. -/
def sampleWake (db : Db) : WakePump := .start db (fun _ => some ⟨.idle, some ⟨0⟩⟩) ⟨0⟩

def sampleAssignment (n : Nat) (taskId : TaskId) : StoreOp :=
  let message := sampleMessage sampleLead sampleMember n
  sampleWrite { message with envelope := { message.envelope with taskId := some taskId } }

def sampleQueue : Db := live .accepting [.store (sampleAssignment 1 sampleTask),
  .store (sampleAssignment 2 ⟨"T-2", by decide⟩)] .empty

theorem headTask_eq_none {db : Db} {member : MemberKey}
    (h : ∀ columns ∈ db.tasks.rows, columns.team = member.team → columns.assignee ≠ member.agent) :
    headTask db member = none := by
  refine Option.eq_none_iff_forall_not_mem.mpr (fun row hhead => ?_)
  obtain ⟨-, columns, hcols, -⟩ := headTask_eq_some_iff.mp hhead
  obtain ⟨hmem, hteam, hagent, -⟩ := mem_queueColumns (mem_of_mem_head? hcols)
  exact h columns hmem hteam hagent

theorem keepsHeads_of_same {world : World} {pump : WakePump} {instant : IsoTimestamp} {step : LifeStep}
    (h : ∀ member, headTask (step.apply world pump.db) member = headTask pump.db member) :
    (WakeStep.ledger instant step).KeepsHeads world pump := by
  refine ⟨fun member row last hhead hlast _ => ⟨row, last, (h member).trans hhead, hlast, Int.le_refl _⟩, ?_⟩
  intro tick _ candidate _
  rw [h]

/-- A third task is assigned between the reminders; it goes to the end of the queue. -/
def sampleLaterAssignment : LifeStep := .store (sampleAssignment 3 ⟨"T-3", by decide⟩)

def sampleReminderTicks : List WakeStep :=
  sampleTick ⟨0⟩ ++ [.ledger ⟨10000000000⟩ sampleLaterAssignment] ++ sampleTick ⟨30000000000⟩ ++
    sampleTick ⟨60000000000⟩

/-- The pump between the first reminder and the assignment. -/
def sampleReminded : WakePump := (sampleWake sampleQueue).run .accepting samplePort (sampleTick ⟨0⟩)

theorem sampleReminded_heads (member : MemberKey) :
    headTask (sampleLaterAssignment.apply .accepting sampleReminded.db) member = headTask sampleReminded.db member := by
  by_cases hmember : member = sampleMemberKey
  · rw [hmember]
    decide +kernel
  · have hrows :
      ∀ db : Db, (∀ columns ∈ db.tasks.rows, (⟨columns.team, columns.assignee⟩ : MemberKey) = sampleMemberKey) →
        headTask db member = none := by
      intro db h
      refine headTask_eq_none (fun columns hcols hteam hagent => hmember ?_)
      rw [← h columns hcols, hteam, hagent]
    rw [hrows _ (by decide +kernel), hrows _ (by decide +kernel)]

theorem reminded_after_interval :
    promptsTo sampleMemberKey ((sampleWake sampleQueue).run .accepting samplePort sampleReminderTicks).log =
      [⟨0⟩, ⟨60000000000⟩] ∧
    (promptsTo sampleMemberKey ((sampleWake sampleQueue).run .accepting samplePort sampleReminderTicks).log).Pairwise
      (fun earlier later => intervalPassed earlier later = true) := by
  refine ⟨by decide +kernel, prompts_spaced .accepting samplePort sampleQueue _ ⟨0⟩ _ ?_ ?_ sampleMemberKey⟩
  · refine ⟨trivial, trivial, trivial, trivial, keepsHeads_of_same sampleReminded_heads, trivial,
      trivial, trivial, trivial, trivial, trivial, trivial, trivial, trivial⟩
  · refine ⟨?_, ?_, ?_, ?_, ?_, ?_, ?_, ?_, ?_, ?_, ?_, ?_, ?_, trivial⟩
    all_goals decide +kernel

/-- The member completes the task it was prompted for, and is prompted for the next one five seconds later. -/
def sampleCompletion : List WakeStep :=
  sampleTick ⟨0⟩ ++ [.ledger ⟨1000000000⟩ (.store (sampleWrite (sampleTaskMessage sampleMember sampleLead 3
    (some (.close .completed none)))))] ++ sampleTick ⟨5000000000⟩

theorem prompted_for_next_task : LedgerWritten .accepting samplePort sampleCompletion (sampleWake sampleQueue) ∧
    promptsTo sampleMemberKey ((sampleWake sampleQueue).run .accepting samplePort sampleCompletion).log =
      [⟨0⟩, ⟨5000000000⟩] ∧
    ¬ (promptsTo sampleMemberKey ((sampleWake sampleQueue).run .accepting samplePort sampleCompletion).log).Pairwise
      (fun earlier later => intervalPassed earlier later = true) := by
  have hprompts : promptsTo sampleMemberKey ((sampleWake sampleQueue).run .accepting samplePort sampleCompletion).log =
      [⟨0⟩, ⟨5000000000⟩] := by decide +kernel
  refine ⟨?_, hprompts, ?_⟩
  · refine ⟨?_, ?_, ?_, ?_, ?_, ?_, ?_, ?_, ?_, trivial⟩
    all_goals decide +kernel
  · rw [hprompts]
    decide +kernel

end AtmCore
