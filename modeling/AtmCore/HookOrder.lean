import AtmCore.HookRegistry

/-! The order in which registrations take effect. As long as no request that holds the permit is dropped under its
job, the jobs of the control path do not overlap. A job then installs what it has built before another one builds, so
the snapshot only goes forward, and what a command reads after a write was refreshed is at least as new as the write. -/

namespace AtmCore

open List Option

namespace HookSystem

section Projections

variable (system : HookSystem) (id : Nat) (owner : PermitOwner) (phase : Option RequestPhase)

@[simp] theorem release_jobs : (system.release owner).jobs = system.jobs := by
  rw [release]
  split <;> rfl

@[simp] theorem release_requests : (system.release owner).requests = system.requests := by
  rw [release]
  split <;> rfl

@[simp] theorem setRequest_jobs : (system.setRequest id phase).jobs = system.jobs := rfl

@[simp] theorem setRequest_requests :
    (system.setRequest id phase).requests = Function.update system.requests id phase := rfl

@[simp] theorem setRequest_permit : (system.setRequest id phase).permit = system.permit := rfl

end Projections

end HookSystem

/-- The jobs do not overlap: the one that runs has the permit itself, or its request has it and waits for the job. -/
structure Exclusive (system : HookSystem) : Prop where
  single : system.jobs.length ≤ 1
  free : system.permit = none → system.jobs = []
  owned : ∀ job ∈ system.jobs, system.permit = some (.job job.request) ∨
    system.permit = some (.request job.request) ∧ ∃ call, system.requests job.request = some (.awaiting call)

/-- The request is not dropped while it has the permit of a job that runs. -/
def HookStep.Settled (system : HookSystem) : HookStep → Prop
  | .leave id => ∀ job ∈ system.jobs, job.request = id → system.permit ≠ some (.request id)
  | _ => True

section Exclusion

variable {system : HookSystem} {id : Nat} {job : ControlJob} {step : HookStep}

theorem Exclusive.of_idle (h : system.jobs = []) : Exclusive system where
  single := by simp [h]
  free := fun _ => h
  owned := by simp [h]

variable (h : Exclusive system)
include h

theorem Exclusive.jobs_eq (hjob : job ∈ system.jobs) : system.jobs = [job] := by
  have hsingle := h.single
  cases hjobs : system.jobs with
  | nil => simp [hjobs] at hjob
  | cons first rest =>
    have hrest : rest = [] := by
      rw [hjobs, length_cons] at hsingle
      exact length_eq_zero_iff.mp (by omega)
    rw [hrest] at hjobs ⊢
    rw [hjobs, mem_singleton] at hjob
    rw [hjob]

/-- A change of a request that has no job waiting under its permit. -/
theorem Exclusive.setRequest (phase : Option RequestPhase)
    (hother : ∀ job ∈ system.jobs, system.permit = some (.request job.request) → job.request ≠ id) :
    Exclusive (system.setRequest id phase) := by
  refine ⟨h.single, h.free, fun job hjob => ?_⟩
  rcases h.owned job hjob with howned | ⟨howned, call, hcall⟩
  · exact .inl howned
  · refine .inr ⟨howned, call, ?_⟩
    rw [HookSystem.setRequest_requests, Function.update_of_ne (hother job hjob howned), hcall]

theorem Exclusive.release {owner : PermitOwner} (hidle : system.permit = some owner → system.jobs = []) :
    Exclusive (system.release owner) := by
  by_cases hown : system.permit = some owner
  · exact .of_idle (by rw [HookSystem.release_jobs, hidle hown])
  · rw [HookSystem.release, if_neg hown]
    exact h

/-- The owner of the permit of a job is the job, or its request. -/
theorem Exclusive.idle_of_owner (hown : system.permit = some (.request id))
    (hother : ∀ job ∈ system.jobs, job.request = id → ¬ ∃ call, system.requests id = some (.awaiting call)) :
    system.jobs = [] := by
  refine eq_nil_iff_forall_not_mem.mpr (fun job hjob => ?_)
  rcases h.owned job hjob with howned | ⟨howned, hawaits⟩
  · rw [howned] at hown
    cases hown
  · rw [howned] at hown
    obtain rfl : job.request = id := by injection hown with hown; injection hown
    exact hother job hjob rfl hawaits

theorem Exclusive.endJob_jobs (hjob : job ∈ system.jobs) {succeeded : Bool} :
    (system.endJob job.request succeeded).jobs = [] := by
  have hidle : ({ system with jobs := system.jobs.filter (fun other => decide (other.request ≠ job.request)) }.release
      (.job job.request)).jobs = [] := by
    rw [HookSystem.release_jobs]
    simp [h.jobs_eq hjob]
  rw [HookSystem.endJob]
  split <;> exact hidle

theorem Exclusive.setPhase (phase : JobPhase) : Exclusive (system.setPhase id phase) := by
  refine ⟨?_, fun hpermit => ?_, fun job hjob => ?_⟩
  · rw [HookSystem.setPhase, length_map]
    exact h.single
  · rw [HookSystem.setPhase, h.free hpermit]
    rfl
  · obtain ⟨known, hknown, rfl⟩ := List.mem_map.mp hjob
    have hreq : (if known.request = id then { known with phase := phase } else known).request = known.request := by
      split <;> rfl
    rw [hreq]
    exact h.owned known hknown

theorem Exclusive.moveJob (hjob : job ∈ system.jobs) (failure : Bool) : Exclusive (system.moveJob job failure) := by
  -- what a job changes beside the jobs concerns neither the permit nor the requests
  have hsame : ∀ store earlier chains builtFrom dirty log, Exclusive
      { system with
        store := store, earlier := earlier, chains := chains, builtFrom := builtFrom, dirty := dirty, log := log } :=
    fun _ _ _ _ _ _ => ⟨h.single, h.free, h.owned⟩
  have hend : ∀ dirty log succeeded,
      Exclusive ({ system with dirty := dirty, log := log }.endJob job.request succeeded) :=
    fun dirty log succeeded => .of_idle ((hsame _ _ _ _ dirty log).endJob_jobs hjob)
  rw [HookSystem.moveJob]
  split
  · split
    · split
      · exact hend _ _ _
      · exact (hsame _ _ _ _ _ _).setPhase _
    · split
      · exact h.setPhase _
      · exact hend _ _ _
    · exact hend _ _ _
  · split
    · exact hend _ _ _
    · exact h.setPhase _
  · split
    · exact hend _ _ _
    · exact h.setPhase _
  · exact (hsame _ _ _ _ _ _).setPhase _
  · exact hend _ _ _

/-- A request that is not waiting for a job has none under its permit. -/
theorem Exclusive.other (hphase : ∀ call, system.requests id ≠ some (.awaiting call)) :
    ∀ job ∈ system.jobs, system.permit = some (.request job.request) → job.request ≠ id := by
  intro job hjob hown heq
  rcases h.owned job hjob with howned | ⟨-, call, hcall⟩
  · rw [howned] at hown
    cases hown
  · exact hphase call (heq ▸ hcall)

/-- A request that is not waiting for a job leaves, or goes on without the permit. -/
theorem Exclusive.leave (phase : Option RequestPhase) (hphase : ∀ call, system.requests id ≠ some (.awaiting call)) :
    Exclusive ((system.release (.request id)).setRequest id phase) := by
  have hrel : Exclusive (system.release (.request id)) :=
    h.release (fun hown => h.idle_of_owner hown (fun _ _ _ => not_exists.mpr hphase))
  refine hrel.setRequest phase (hrel.other ?_)
  rwa [HookSystem.release_requests]

theorem Exclusive.apply (hsettled : step.Settled system) : Exclusive (step.apply system) := by
  cases step with
  | arrive id call =>
    dsimp only [HookStep.apply]
    split
    · next hguard =>
      rw [Bool.and_eq_true, isNone_iff_eq_none] at hguard
      have hset : ∀ phase, Exclusive (system.setRequest id phase) :=
        fun phase => h.setRequest phase (h.other (fun call => by simp [hguard.1]))
      split
      · split <;> exact hset _
      · exact hset _
    · exact h
  | acquire id =>
    dsimp only [HookStep.apply]
    split
    · next call hpermit hreq =>
      have hjobs := h.free hpermit
      refine ⟨by simp [hjobs], fun hnone => absurd hnone (by simp), fun job hjob => ?_⟩
      rw [HookSystem.setRequest_jobs, hjobs, mem_singleton] at hjob
      rw [hjob]
      cases hpolicy : call.policy with
      | awaitCompletion => exact .inr ⟨rfl, call, by simp⟩
      | abandonResponseAtDeadline => exact .inl rfl
    · exact h
  | work id failure =>
    dsimp only [HookStep.apply]
    split
    · next job hf => exact h.moveJob (mem_of_find?_eq_some hf) failure
    · exact h
  | resume id =>
    dsimp only [HookStep.apply]
    split
    · next call succeeded hreq =>
      have hleave : ∀ phase, Exclusive ((system.release (.request id)).setRequest id phase) :=
        fun phase => h.leave phase (fun call => by simp [hreq])
      split <;> exact hleave _
    · exact h
  | consult id =>
    dsimp only [HookStep.apply]
    split
    · next team hook hreq =>
      have hread : Exclusive { system with log := system.log ++ [.consulted team hook (system.chains team hook)] } :=
        ⟨h.single, h.free, h.owned⟩
      exact hread.setRequest none (hread.other (fun call => by simp [hreq]))
    · exact h
  | leave id =>
    have hidle : system.permit = some (.request id) → system.jobs = [] := fun hown =>
      h.idle_of_owner hown (fun job hjob heq => absurd hown (hsettled job hjob heq))
    refine (h.release hidle).setRequest none (fun job hjob hown heq => ?_)
    rw [HookSystem.release_jobs] at hjob
    rw [heq, HookSystem.release] at hown
    split at hown
    · cases hown
    · exact hsettled job hjob heq hown

end Exclusion

/-- A command that reads after the refresh of a write reads a chain built from the store at the write, or later. -/
def Succeeds (versions : List HookTable) : HookEvent → HookEvent → Prop
  | .refreshed version, .consulted team hook chain =>
    ∃ source table, version ≤ source ∧ versions[source]? = some table ∧ chain = buildChains table team hook
  | _, _ => True

/-- What a job has in hand is not older than the snapshot, nor than its own write. -/
def JobSound (system : HookSystem) : JobPhase → Prop
  | .committed version => version ≤ system.earlier.length
  | .built version source chains =>
    (∃ table, system.versions[source]? = some table ∧ chains = buildChains table) ∧
      (∀ shown, system.builtFrom = some shown → shown ≤ source) ∧ ∀ written, version = some written → written ≤ source
  | .installed version =>
    ∀ written, version = some written → ∃ shown, system.builtFrom = some shown ∧ written ≤ shown
  | _ => True

/-- The snapshot shows a version of the store that is not older than any write that was refreshed. -/
structure Forward (system : HookSystem) : Prop where
  shown : ∀ source, system.builtFrom = some source →
    ∃ table, system.versions[source]? = some table ∧ system.chains = buildChains table
  refreshed : ∀ version, HookEvent.refreshed version ∈ system.log → ∃ source, system.builtFrom = some source ∧
    version ≤ source
  ordered : system.log.Pairwise (Succeeds system.versions)
  jobs : ∀ job ∈ system.jobs, JobSound system job.phase

section Order

variable {system : HookSystem} {id : Nat} {job : ControlJob} {step : HookStep} {version : Option Nat}

theorem versions_length : system.versions.length = system.earlier.length + 1 := by
  simp [HookSystem.versions]

theorem versions_present : system.versions[system.earlier.length]? = some system.store := by
  simp [HookSystem.versions]

theorem Forward.shown_le (h : Forward system) {source : Nat} (hsrc : system.builtFrom = some source) :
    source ≤ system.earlier.length := by
  obtain ⟨table, htable, -⟩ := h.shown source hsrc
  have hlt := (List.getElem?_eq_some_iff.mp htable).1
  rw [versions_length] at hlt
  omega

theorem Forward.frame (h : Forward system) (permit : Option PermitOwner) (requests : Nat → Option RequestPhase) :
    Forward { system with permit := permit, requests := requests } :=
  ⟨h.shown, h.refreshed, h.ordered, h.jobs⟩

theorem Forward.release (h : Forward system) (owner : PermitOwner) : Forward (system.release owner) := by
  rw [HookSystem.release]
  split
  · exact h.frame none system.requests
  · exact h

theorem Forward.endJob (h : Forward system) (id : Nat) (succeeded : Bool) : Forward (system.endJob id succeeded) := by
  have hend : Forward { system with jobs := system.jobs.filter (fun job => decide (job.request ≠ id)) } :=
    ⟨h.shown, h.refreshed, h.ordered, fun job hjob => h.jobs job (mem_filter.mp hjob).1⟩
  have hrel := hend.release (.job id)
  rw [HookSystem.endJob]
  split
  · exact hrel.frame _ _
  · exact hrel

theorem Forward.setPhase {phase : JobPhase} (hjobs : system.jobs = [job]) (h : Forward { system with jobs := [] })
    (hs : JobSound system phase) : Forward (system.setPhase job.request phase) := by
  refine ⟨h.shown, h.refreshed, h.ordered, fun moved hmoved => ?_⟩
  rw [HookSystem.setPhase, hjobs] at hmoved
  simp only [map_cons, map_nil, if_true, mem_singleton] at hmoved
  rw [hmoved]
  cases phase <;> exact hs

theorem Succeeds.grow {versions : List HookTable} (table : HookTable) {earlier later : HookEvent}
    (h : Succeeds versions earlier later) : Succeeds (versions ++ [table]) earlier later := by
  cases earlier with
  | consulted team hook chain => trivial
  | refreshed version =>
    cases later with
    | refreshed other => trivial
    | consulted team hook chain =>
      obtain ⟨source, known, hle, hknown, hchain⟩ := h
      refine ⟨source, known, hle, ?_, hchain⟩
      rw [getElem?_append_left (List.getElem?_eq_some_iff.mp hknown).1, hknown]

variable (h : Forward system)
include h

theorem Forward.jobless : Forward { system with jobs := [] } := ⟨h.shown, h.refreshed, h.ordered, by simp⟩

/-- A write is committed: the store has a version more. -/
theorem Forward.committed (hjobs : system.jobs = [job]) (write : HookWrite) :
    Forward ({ system with store := write.apply system.store, earlier := system.earlier ++ [system.store] }.setPhase
      job.request (.committed (system.earlier.length + 1))) := by
  refine .setPhase hjobs ⟨fun source hsrc => ?_, h.refreshed,
    h.ordered.imp (fun hfollows => hfollows.grow (write.apply system.store)), by simp⟩ ?_
  · obtain ⟨table, htable, hchains⟩ := h.shown source hsrc
    refine ⟨table, ?_, hchains⟩
    change (system.versions ++ [write.apply system.store])[source]? = some table
    rw [getElem?_append_left (List.getElem?_eq_some_iff.mp htable).1, htable]
  · simp [JobSound]

/-- The chains of a job are installed: the snapshot goes forward. -/
theorem Forward.installed (hjobs : system.jobs = [job]) {source : Nat}
    {chains : HookChains} (hs : JobSound system (.built version source chains)) :
    Forward ({ system with chains := chains, builtFrom := some source }.setPhase job.request (.installed version)) := by
  obtain ⟨⟨table, htable, hchains⟩, hfwd, hwr⟩ := hs
  refine .setPhase hjobs ⟨fun other hother => ?_, fun other hother => ?_, h.ordered, by simp⟩
    (fun written hver => ⟨source, rfl, hwr written hver⟩)
  · cases hother
    exact ⟨table, htable, hchains⟩
  · obtain ⟨shown, hshown, hle⟩ := h.refreshed other hother
    exact ⟨source, rfl, hle.trans (hfwd shown hshown)⟩

theorem Forward.finished (hs : JobSound system (.installed version)) :
    Forward { system with dirty := false, log := system.log ++ version.toList.map HookEvent.refreshed } := by
  refine ⟨h.shown, fun other hother => ?_, ?_, h.jobs⟩
  · rcases mem_append.mp hother with hother | hother
    · exact h.refreshed other hother
    · obtain ⟨written, hwr, heq⟩ := List.mem_map.mp hother
      obtain rfl : written = other := by injection heq
      exact hs written (mem_toList.mp hwr)
  · refine pairwise_append.mpr ⟨h.ordered, ?_, fun earlier _ later hlater => ?_⟩
    · cases version <;> simp
    · obtain ⟨written, -, rfl⟩ := List.mem_map.mp hlater
      cases earlier <;> trivial

theorem Forward.moveJob (hexcl : Exclusive system) (hjob : job ∈ system.jobs) (failure : Bool) :
    Forward (system.moveJob job failure) := by
  have hjobs := hexcl.jobs_eq hjob
  have hs := h.jobs job hjob
  have hdirty : ∀ dirty, Forward { system with dirty := dirty } := fun _ => ⟨h.shown, h.refreshed, h.ordered, h.jobs⟩
  -- what a job builds now shows the store as it is
  have hbuilt : ∀ version, (∀ written, version = some written → written ≤ system.earlier.length) →
      Forward (system.setPhase job.request (.built version system.earlier.length (buildChains system.store))) :=
    fun version hver => .setPhase hjobs h.jobless
      ⟨⟨system.store, versions_present, rfl⟩, fun shown hshown => h.shown_le hshown, hver⟩
  rw [HookSystem.moveJob]
  split
  · split
    · next write _ =>
      split
      · exact h.endJob _ _
      · exact h.committed hjobs write
    · split
      · exact .setPhase hjobs h.jobless trivial
      · exact h.endJob _ _
    · exact h.endJob _ _
  · next version hphase =>
    rw [hphase] at hs
    split
    · exact (hdirty true).endJob _ _
    · exact hbuilt _ (fun written hwr => by obtain rfl := some.inj hwr; exact hs)
  · split
    · exact (hdirty true).endJob _ _
    · exact hbuilt _ nofun
  · next version source chains hphase =>
    rw [hphase] at hs
    exact h.installed hjobs hs
  · next version hphase =>
    rw [hphase] at hs
    exact (h.finished hs).endJob _ _

theorem Forward.apply (hexcl : Exclusive system) : Forward (step.apply system) := by
  cases step with
  | arrive id call =>
    dsimp only [HookStep.apply]
    split
    · split
      · split <;> exact h.frame _ _
      · exact h.frame _ _
    · exact h
  | acquire id =>
    dsimp only [HookStep.apply]
    split
    · next call _ _ =>
      refine ⟨h.shown, h.refreshed, h.ordered, fun job hjob => ?_⟩
      rcases mem_cons.mp hjob with rfl | hjob
      · trivial
      · exact h.jobs job hjob
    · exact h
  | work id failure =>
    dsimp only [HookStep.apply]
    split
    · next job hf => exact h.moveJob hexcl (mem_of_find?_eq_some hf) failure
    · exact h
  | resume id =>
    dsimp only [HookStep.apply]
    split
    · split <;> exact (h.release _).frame _ _
    · exact h
  | consult id =>
    dsimp only [HookStep.apply]
    split
    · next team hook _ =>
      refine ⟨h.shown, fun version hver => ?_, ?_, h.jobs⟩
      · rcases mem_append.mp hver with hver | hver
        · exact h.refreshed version hver
        · cases mem_singleton.mp hver
      · refine pairwise_append.mpr ⟨h.ordered, pairwise_singleton _ _, fun earlier hearlier later hlater => ?_⟩
        rw [mem_singleton.mp hlater]
        cases earlier with
        | consulted _ _ _ => trivial
        | refreshed version =>
          obtain ⟨source, hsrc, hle⟩ := h.refreshed version hearlier
          obtain ⟨table, htable, hchains⟩ := h.shown source hsrc
          exact ⟨source, table, hle, htable, by rw [hchains]⟩
    · exact h
  | leave id => exact (h.release _).frame _ _

end Order

/-- Every step of a run meets the condition. -/
def Settles : List HookStep → HookSystem → Prop
  | [], _ => True
  | step :: steps, system => step.Settled system ∧ Settles steps (step.apply system)

theorem run_ordered {steps : List HookStep} {system : HookSystem} (hexcl : Exclusive system)
    (hfwd : Forward system) (hsettles : Settles steps system) :
    Exclusive (system.run steps) ∧ Forward (system.run steps) := by
  induction steps generalizing system with
  | nil => exact ⟨hexcl, hfwd⟩
  | cons step steps ih => exact ih (hexcl.apply hsettles.1) (hfwd.apply hexcl) hsettles.2

theorem Forward.start (store : HookTable) (loaded : Bool) : Forward (.start store loaded) := by
  refine ⟨fun source hsrc => ?_, nofun, List.Pairwise.nil, nofun⟩
  cases loaded with
  | false => cases hsrc
  | true =>
    cases hsrc
    exact ⟨store, rfl, rfl⟩

/-- In every run in which no request is dropped while it has the permit of a running job, no two jobs of the control
path overlap, and what a command reads after the refresh of a write is built from the store at the write, or later. -/
theorem registrations_take_effect_in_order (store : HookTable) (loaded : Bool) (steps : List HookStep)
    (hsettles : Settles steps (.start store loaded)) :
    ((HookSystem.start store loaded).run steps).jobs.length ≤ 1 ∧
    ((HookSystem.start store loaded).run steps).log.Pairwise
      (Succeeds ((HookSystem.start store loaded).run steps).versions) := by
  obtain ⟨hexclusive, hforward⟩ := run_ordered (Exclusive.of_idle rfl) (Forward.start store loaded) hsettles
  exact ⟨hexclusive.single, hforward.ordered⟩

def sampleHook : HookName := ⟨"task_start"⟩

def sampleHookTeam : TeamName := ⟨"hook-team", by decide⟩

def sampleRegistration : HookRegistration where
  team := sampleHookTeam
  phase := ⟨"phase-1"⟩
  hook := sampleHook
  modulePath := "hooks/check"
  cwd := "."
  timeoutMs := 1000
  custom := []
  active := true
  registeredBy := ⟨"lead", by decide⟩
  registeredAt := ⟨0⟩
  disabledAt := none

/-- What the commands of a run read, as the modules to run. -/
def consultedModules (system : HookSystem) : List (List String) :=
  system.log.filterMap (fun event => match event with
    | .consulted _ _ chain => some (chain.map HookRegistration.modulePath)
    | .refreshed _ => none)

/-- A write and then a command, each to its end. -/
def sampleRegistered : List HookStep :=
  [.arrive 1 (.write (.register sampleRegistration)), .acquire 1,
    .work 1 false, .work 1 false, .work 1 false, .work 1 false, .resume 1,
    .arrive 2 (.command sampleHookTeam sampleHook), .consult 2]

theorem registered_hook_consulted :
    consultedModules ((HookSystem.start .empty false).run sampleRegistered) = [["hooks/check"]] ∧
    ((HookSystem.start .empty false).run sampleRegistered).jobs.length ≤ 1 ∧
    ((HookSystem.start .empty false).run sampleRegistered).log.Pairwise
      (Succeeds ((HookSystem.start .empty false).run sampleRegistered).versions) :=
  ⟨by decide +kernel, registrations_take_effect_in_order .empty false sampleRegistered
    ⟨trivial, trivial, trivial, trivial, trivial, trivial, trivial, trivial, trivial, trivial⟩⟩

/-- A command starts the reload of the dirty snapshot and is dropped when the job has read the store. A write goes
through to its end, and then the job of the command installs what it had read. -/
def sampleDropped : List HookStep :=
  [.arrive 1 (.command sampleHookTeam sampleHook), .acquire 1, .work 1 false, .work 1 false, .leave 1,
    .arrive 2 (.write (.register sampleRegistration)), .acquire 2, .work 2 false, .work 2 false,
    .work 2 false, .work 2 false, .resume 2, .work 1 false, .work 1 false,
    .arrive 3 (.command sampleHookTeam sampleHook), .consult 3]

theorem dropped_request_installs_stale_chain :
    ((HookSystem.start .empty false).run (sampleDropped.take 7)).jobs.length = 2 ∧
    ((HookSystem.start .empty false).run sampleDropped).log = [.refreshed 1, .consulted sampleHookTeam sampleHook []] ∧
    ((HookSystem.start .empty false).run sampleDropped).versions.map
      (fun table => (buildChains table sampleHookTeam sampleHook).map HookRegistration.modulePath) =
        [[], ["hooks/check"]] ∧
    ¬ ((HookSystem.start .empty false).run sampleDropped).log.Pairwise
      (Succeeds ((HookSystem.start .empty false).run sampleDropped).versions) := by
  have hlog : ((HookSystem.start .empty false).run sampleDropped).log =
      [.refreshed 1, .consulted sampleHookTeam sampleHook []] := rfl
  have hversions : ((HookSystem.start .empty false).run sampleDropped).versions.map
      (fun table => (buildChains table sampleHookTeam sampleHook).map HookRegistration.modulePath) =
        [[], ["hooks/check"]] := by decide +kernel
  refine ⟨by decide +kernel, hlog, hversions, fun hordered => ?_⟩
  rw [hlog] at hordered
  obtain ⟨source, table, hle, htable, hchain⟩ := (pairwise_cons.mp hordered).1 _ mem_cons_self
  have hmodules := congrArg (fun modules => modules[source]?) hversions
  simp only [getElem?_map, htable, map_some, ← hchain, map_nil] at hmodules
  match source, hle, hmodules with
  | 1, _, hmodules => cases hmodules
  | source + 2, _, hmodules => cases hmodules

end AtmCore
