import AtmCore.QueueWakePolicy
import AtmCore.RosterNames
import Mathlib.Data.List.Dedup

/-! The mirror of the roster in memory. Every save goes to the database first and then to the mirror, the runtime
states of the members live in the mirror only, and a reload empties the mirror and fills it again team by team. As
long as no read of a reload fails, the mirror has the members of the database after every step, and a step that fails
leaves it as it was. -/

namespace AtmCore

open Rows Fallible List

inductive RuntimeObservationSource where
  | heartbeat
  | herdrPoll
  deriving DecidableEq

inductive RuntimeObservationAvailability where
  | unobserved
  | fresh
  | unavailable
  deriving DecidableEq

structure RuntimeSessionId where
  val : String
  deriving DecidableEq

structure RosterRuntimeIdentity where
  pid : Nat
  sessionId : Option RuntimeSessionId

structure RosterRuntimeObservation where
  revision : Nat
  state : RuntimeMemberState
  availability : RuntimeObservationAvailability
  lastObservationAttemptBy : Option RuntimeObservationSource
  lastObservationAttemptAt : Option IsoTimestamp
  lastObservedBy : Option RuntimeObservationSource
  lastObservedAt : Option IsoTimestamp
  pid : Option Nat
  sessionId : Option RuntimeSessionId
  lastActiveAt : Option IsoTimestamp
  stateChangedBy : Option RuntimeObservationSource
  stateChangedAt : Option IsoTimestamp
  sessionChangedBy : Option RuntimeObservationSource
  sessionChangedAt : Option IsoTimestamp
  deriving DecidableEq

def RosterRuntimeObservation.default : RosterRuntimeObservation :=
  ⟨0, .unknown, .unobserved, none, none, none, none, none, none, none, none, none, none, none⟩

/-- `RosterStateRevision::next`, which saturates. -/
def nextRevision (revision : Nat) : Nat := min (revision + 1) (2 ^ 64 - 1)

structure RosterRuntimeObservationUpdate where
  agent : AgentName
  state : Option RuntimeMemberState
  availability : RuntimeObservationAvailability
  source : RuntimeObservationSource
  observedAt : IsoTimestamp
  identity : Option RosterRuntimeIdentity

structure RosterRuntimeMutationOutcome where
  agent : AgentName
  previousState : RuntimeMemberState
  current : RosterRuntimeObservation
  stateChanged : Bool
  pidChanged : Bool

def observeState (update : RosterRuntimeObservationUpdate) (next : RuntimeMemberState)
    (runtime : RosterRuntimeObservation) : RosterRuntimeObservation :=
  let observed := { runtime with
    revision := nextRevision runtime.revision
    lastObservedBy := some update.source
    lastObservedAt := some update.observedAt
    state := next }
  let changed := if next ≠ runtime.state then
      { observed with stateChangedBy := some update.source, stateChangedAt := some update.observedAt } else observed
  if next = .active then { changed with lastActiveAt := some update.observedAt } else changed

def observeIdentity (update : RosterRuntimeObservationUpdate) (identity : RosterRuntimeIdentity)
    (runtime : RosterRuntimeObservation) : RosterRuntimeObservation :=
  let observed := { runtime with pid := some identity.pid }
  match identity.sessionId with
  | some sessionId =>
    if runtime.sessionId ≠ some sessionId then
      { observed with
        sessionId := some sessionId
        sessionChangedBy := some update.source
        sessionChangedAt := some update.observedAt }
    else observed
  | none => observed

def applyRosterRuntimeObservation (update : RosterRuntimeObservationUpdate) (runtime : RosterRuntimeObservation) :
    RosterRuntimeMutationOutcome :=
  let attempted := { runtime with
    availability := update.availability
    lastObservationAttemptBy := some update.source
    lastObservationAttemptAt := some update.observedAt }
  let observed := match update.state with
    | some next => observeState update next attempted
    | none => attempted
  let current := match update.identity with
    | some identity => observeIdentity update identity observed
    | none => observed
  ⟨update.agent, runtime.state, current, update.state.any (fun next => decide (next ≠ runtime.state)),
    runtime.pid.any (fun pid => decide (current.pid ≠ some pid))⟩

def RosterRuntimeObservation.member (runtime : RosterRuntimeObservation) : MemberRuntime :=
  ⟨runtime.state, runtime.stateChangedAt⟩

variable {update : RosterRuntimeObservationUpdate} {runtime : RosterRuntimeObservation}

theorem observeState_member {next : RuntimeMemberState} :
    (observeState update next runtime).member = applyRuntimeObservation (some next)
      update.observedAt runtime.member := by
  rw [observeState, applyRuntimeObservation]
  by_cases hchanged : next = runtime.state
  · split <;> simp [RosterRuntimeObservation.member, hchanged]
  · split <;> simp [RosterRuntimeObservation.member, hchanged]

theorem observeIdentity_member {identity : RosterRuntimeIdentity} :
    (observeIdentity update identity runtime).member = runtime.member := by
  rw [observeIdentity]
  cases identity.sessionId with
  | none => rfl
  | some sessionId =>
    dsimp only
    split <;> rfl

/-- An update of the roster is to the state of the member what an observation of the wake pump is. -/
theorem applyRosterRuntimeObservation_member : (applyRosterRuntimeObservation update runtime).current.member =
    applyRuntimeObservation update.state update.observedAt runtime.member := by
  rw [applyRosterRuntimeObservation]
  cases update.identity with
  | none =>
    cases update.state with
    | none => rfl
    | some next => exact observeState_member
  | some identity =>
    refine observeIdentity_member.trans ?_
    cases update.state with
    | none => rfl
    | some next => exact observeState_member

structure RosterMemberEphemeralState where
  runtime : RosterRuntimeObservation
  herdrWakePending : Bool
  deriving DecidableEq

def RosterMemberEphemeralState.default : RosterMemberEphemeralState := ⟨.default, false⟩

structure TeamRosterRecord where
  entries : List RosterMember
  ephemeral : AgentName → Option RosterMemberEphemeralState

namespace TeamRosterRecord

def default : TeamRosterRecord := ⟨[], fun _ => none⟩

/-- `replaced_with`: members that stay keep their state. -/
def replacedWith (record : TeamRosterRecord) (members : List RosterMember) : TeamRosterRecord where
  entries := members
  ephemeral agent := if members.any (fun member => decide (member.agentName = agent)) then
    some ((record.ephemeral agent).getD .default) else none

def fromDurable (entries : List RosterMember) : TeamRosterRecord := default.replacedWith entries

def setEphemeral (record : TeamRosterRecord) (agent : AgentName) (state : RosterMemberEphemeralState) :
    TeamRosterRecord :=
  { record with ephemeral := Function.update record.ephemeral agent (some state) }

/-- The updates of a batch in order; those of unknown members are passed over. -/
def applyUpdates : List RosterRuntimeObservationUpdate → TeamRosterRecord →
    TeamRosterRecord × List RosterRuntimeMutationOutcome
  | [], record => (record, [])
  | update :: updates, record =>
    if record.entries.any (fun member => decide (member.agentName = update.agent)) then
      let state := (record.ephemeral update.agent).getD .default
      let outcome := applyRosterRuntimeObservation update state.runtime
      let (written, outcomes) := applyUpdates updates
        (record.setEphemeral update.agent { state with runtime := outcome.current })
      (written, outcome :: outcomes)
    else applyUpdates updates record

end TeamRosterRecord

/-- The mirror: a record for every team that it knows. -/
structure RosterRuntimeState where
  teams : TeamName → Option TeamRosterRecord

namespace RosterRuntimeState

def empty : RosterRuntimeState := ⟨fun _ => none⟩

def set (mirror : RosterRuntimeState) (team : TeamName) (record : Option TeamRosterRecord) : RosterRuntimeState :=
  ⟨Function.update mirror.teams team record⟩

def hydrate (team : TeamName) (entries : List RosterMember) (mirror : RosterRuntimeState) : RosterRuntimeState :=
  mirror.set team (some (.fromDurable entries))

/-- `replace_roster`: an empty roster takes the team away. -/
def replaceRoster (team : TeamName) (members : List RosterMember) (mirror : RosterRuntimeState) : RosterRuntimeState :=
  if members.isEmpty then mirror.set team none
  else mirror.set team (some (((mirror.teams team).getD .default).replacedWith members))

def loadTeamRoster (team : TeamName) (mirror : RosterRuntimeState) : List RosterMember :=
  ((mirror.teams team).map TeamRosterRecord.entries).getD []

def ephemeralState (team : TeamName) (agent : AgentName) (mirror : RosterRuntimeState) :
    Option RosterMemberEphemeralState :=
  (mirror.teams team).bind (fun record => record.ephemeral agent)

/-- `set_herdr_wake_pending`, which passes over an unknown member. -/
def setHerdrWakePending (team : TeamName) (agent : AgentName) (pending : Bool) (mirror : RosterRuntimeState) :
    Bool × RosterRuntimeState :=
  match mirror.teams team with
  | some record =>
    if record.entries.any (fun member => decide (member.agentName = agent)) then
      let state := (record.ephemeral agent).getD .default
      (true, mirror.set team (some (record.setEphemeral agent { state with herdrWakePending := pending })))
    else (false, mirror)
  | none => (false, mirror)

def applyRuntimeObservations (team : TeamName) (updates : List RosterRuntimeObservationUpdate)
    (mirror : RosterRuntimeState) : List RosterRuntimeMutationOutcome × RosterRuntimeState :=
  match mirror.teams team with
  | some record =>
    let (written, outcomes) := TeamRosterRecord.applyUpdates updates record
    (outcomes, mirror.set team (some written))
  | none => ([], mirror)

end RosterRuntimeState

/-- Which reads of the database fail. -/
structure DurableReads where
  teamsFailure : Option AtmError
  rosterFailure : TeamName → Option AtmError

def DurableReads.load (reads : DurableReads) (team : TeamName) (durable : Table RosterRow.member) :
    Except AtmError (List RosterMember) :=
  match reads.rosterFailure team with
  | some error => .error error
  | none => loadRoster team durable

/-- The teams one after the other; a read that fails leaves those before it. -/
def hydrateTeams (reads : DurableReads) (durable : Table RosterRow.member) :
    List TeamName → RosterRuntimeState → Except AtmError Unit × RosterRuntimeState
  | [], mirror => (.ok (), mirror)
  | team :: teams, mirror =>
    match reads.load team durable with
    | .ok members => hydrateTeams reads durable teams (mirror.hydrate team members)
    | .error error => (.error error, mirror)

def hydrateRosterRuntimeFromDurable (reads : DurableReads) (durable : Table RosterRow.member)
    (mirror : RosterRuntimeState) : Except AtmError Unit × RosterRuntimeState :=
  match reads.teamsFailure with
  | some error => (.error error, mirror)
  | none => hydrateTeams reads durable (listRosterTeams durable) mirror

/-- `reload_from_durable`: the mirror is emptied first. -/
def reloadFromDurable (reads : DurableReads) (durable : Table RosterRow.member) (_mirror : RosterRuntimeState) :
    Except AtmError Unit × RosterRuntimeState :=
  hydrateRosterRuntimeFromDurable reads durable .empty

structure WriteThroughRoster where
  durable : Table RosterRow.member
  mirror : RosterRuntimeState

def buildWriteThroughRoster (reads : DurableReads) (durable : Table RosterRow.member) :
    Except AtmError WriteThroughRoster :=
  match hydrateRosterRuntimeFromDurable reads durable .empty with
  | (.ok (), mirror) => .ok ⟨durable, mirror⟩
  | (.error error, _) => .error error

inductive MirrorStep where
  | save (failure : Option AtmError) (roster : RosterSnapshot)
  | observe (team : TeamName) (updates : List RosterRuntimeObservationUpdate)
  | wakePending (team : TeamName) (agent : AgentName) (pending : Bool)
  | reload (reads : DurableReads)

/-- One step: what it returns, and what it leaves. Only a save and a reload can fail. -/
def MirrorStep.apply (otherText : Value → String) (step : MirrorStep) (view : WriteThroughRoster) :
    Except AtmError Unit × WriteThroughRoster :=
  match step with
  | .save failure roster =>
    match saveRoster otherText failure roster view.durable with
    | .ok written => (.ok (), ⟨written, view.mirror.replaceRoster roster.teamName roster.members⟩)
    | .error error => (.error error, view)
  | .observe team updates => (.ok (), { view with mirror := (view.mirror.applyRuntimeObservations team updates).2 })
  | .wakePending team agent pending =>
    (.ok (), { view with mirror := (view.mirror.setHerdrWakePending team agent pending).2 })
  | .reload reads =>
    let (result, mirror) := reloadFromDurable reads view.durable view.mirror
    (result, { view with mirror := mirror })

def WriteThroughRoster.run (otherText : Value → String) (steps : List MirrorStep) (view : WriteThroughRoster) :
    WriteThroughRoster :=
  steps.foldl (fun view step => (step.apply otherText view).2) view

variable {row : RosterRow}

section Reads

variable {reads : DurableReads} {durable : Table RosterRow.member} {mirror next : RosterRuntimeState} {team : TeamName}
  {members : List RosterMember} {teams : List TeamName}

def teamRows (team : TeamName) (durable : Table RosterRow.member) : List RosterRow :=
  (durable.rows.insertionSort rosterRowOrder).filter (fun row => decide (row.member.1 = team))

theorem mem_teamRows : row ∈ teamRows team durable ↔ row ∈ durable.rows ∧ row.member.1 = team := by
  simp [teamRows]

/-- What a load can decode: every row has the metadata of a member, and no team has too many. -/
structure Loadable (durable : Table RosterRow.member) : Prop where
  decodes : ∀ row ∈ durable.rows, ∃ member, buildRosterMember row = .ok member
  capped : ∀ team, (teamRows team durable).length ≤ maxCanonicalRosterMembers

theorem loadRoster_teamRows :
    loadRoster team durable = ((teamRows team durable).take (maxCanonicalRosterMembers + 1)).mapM buildRosterMember >>=
      fun members => if maxCanonicalRosterMembers < members.length then
        .error
          (.validation (s!"roster-store load rejected team {team.val} because persisted roster rows exceeded the " ++
          s!"canonical cap of {maxCanonicalRosterMembers}"))
      else .ok members := rfl

/-- A load gives the members of the rows of the team, all of them. -/
theorem loadRoster_eq_ok (h : loadRoster team durable = .ok members) :
    (teamRows team durable).length ≤ maxCanonicalRosterMembers ∧
      List.Forall₂ (fun row member => buildRosterMember row = .ok member) (teamRows team durable) members := by
  rw [loadRoster_teamRows] at h
  obtain ⟨loaded, hload, h⟩ := bind_eq_ok.mp h
  rw [mapM_eq_ok_iff] at hload
  split at h
  · cases h
  · next hcap =>
    cases h
    have hlen := hload.length_eq
    rw [length_take] at hlen
    have hcapped : (teamRows team durable).length ≤ maxCanonicalRosterMembers := by omega
    rw [take_of_length_le (by omega)] at hload
    exact ⟨hcapped, hload⟩

theorem Loadable.loads (h : Loadable durable) (team : TeamName) : ∃ members, loadRoster team durable = .ok members := by
  have hcap := h.capped team
  rw [loadRoster_teamRows, take_of_length_le (by omega)]
  cases hload : (teamRows team durable).mapM buildRosterMember with
  | error error =>
    obtain ⟨row, hrow, hfail⟩ := mapM_eq_error hload
    obtain ⟨member, hm⟩ := h.decodes row (mem_teamRows.mp hrow).1
    rw [hfail] at hm
    cases hm
  | ok loaded =>
    have hlen := (mapM_eq_ok_iff.mp hload).length_eq
    refine ⟨loaded, ?_⟩
    rw [bind_ok, if_neg (by omega)]

theorem buildRosterMember_key {member : RosterMember} (h : buildRosterMember row = .ok member) :
    member.row = row := buildRosterMember_row (by rw [h]; rfl)

theorem mem_loadRoster (h : loadRoster team durable = .ok members) {row : RosterRow} :
    row ∈ members.map RosterMember.row ↔ row ∈ durable.rows ∧ row.member.1 = team := by
  have hloaded := (loadRoster_eq_ok h).2
  have hrows : members.map RosterMember.row = teamRows team durable := by
    generalize teamRows team durable = rows at hloaded
    clear h
    induction hloaded with
    | nil => rfl
    | cons hhead _ ih => rw [map_cons, ih, buildRosterMember_key hhead]
  rw [hrows, mem_teamRows]

theorem mem_listRosterTeams : team ∈ listRosterTeams durable ↔ ∃ row ∈ durable.rows, row.member.1 = team := by
  simp [listRosterTeams, mem_dedup]

theorem hydrateTeams_eq_ok (h : hydrateTeams reads durable teams mirror = (.ok (), next)) (team : TeamName) :
    (team ∈ teams → ∃ members, loadRoster team durable = .ok members ∧ next.teams team = some (.fromDurable members)) ∧
      (team ∉ teams → next.teams team = mirror.teams team) := by
  induction teams generalizing mirror with
  | nil =>
    cases h
    simp
  | cons first rest ih =>
    rw [hydrateTeams] at h
    split at h
    · next members hload =>
      obtain ⟨hread, hkept⟩ := ih h
      have hms : loadRoster first durable = .ok members := by
        rw [DurableReads.load] at hload
        split at hload
        · cases hload
        · exact hload
      constructor
      · intro hmem
        by_cases hrest : team ∈ rest
        · exact hread hrest
        · obtain rfl := (mem_cons.mp hmem).resolve_right hrest
          refine ⟨members, hms, ?_⟩
          rw [hkept hrest]
          simp [RosterRuntimeState.hydrate, RosterRuntimeState.set]
      · intro hmem
        obtain ⟨hne, hrest⟩ : team ≠ first ∧ team ∉ rest := by simpa using hmem
        rw [hkept hrest]
        simp [RosterRuntimeState.hydrate, RosterRuntimeState.set, hne]
    · cases congrArg Prod.fst h

theorem hydrateTeams_ok (hloadable : Loadable durable) (hreads : ∀ team, reads.rosterFailure team = none) :
    (hydrateTeams reads durable teams mirror).1 = .ok () := by
  induction teams generalizing mirror with
  | nil => rfl
  | cons first rest ih =>
    obtain ⟨members, hms⟩ := hloadable.loads first
    have hload : reads.load first durable = .ok members := by rw [DurableReads.load, hreads first, hms]
    rw [hydrateTeams, hload]
    exact ih

end Reads

/-- The mirror has the members of the database, team by team. -/
def WriteThroughRoster.Reports (view : WriteThroughRoster) : Prop :=
  ∀ team row, row ∈ (view.mirror.loadTeamRoster team).map RosterMember.row ↔
    row ∈ view.durable.rows ∧ row.member.1 = team

/-- What every step keeps. -/
structure Faithful (view : WriteThroughRoster) : Prop where
  loadable : Loadable view.durable
  reports : view.Reports

variable {mirror : RosterRuntimeState}

/-- A mirror that was filled from the database is faithful. -/
theorem Faithful.of_hydrated {reads : DurableReads} {durable : Table RosterRow.member}
    (h : hydrateRosterRuntimeFromDurable reads durable .empty = (.ok (), mirror)) : Faithful ⟨durable, mirror⟩ := by
  have hteams := fun team => hydrateTeams_eq_ok (show hydrateTeams reads durable (listRosterTeams durable) .empty =
    (.ok (), mirror) by
      rw [hydrateRosterRuntimeFromDurable] at h
      split at h
      · cases congrArg Prod.fst h
      · exact h) team
  have hunlisted : ∀ team, team ∉ listRosterTeams durable → ∀ row ∈ durable.rows, row.member.1 ≠ team :=
    fun team hteam row hrow heq => hteam (mem_listRosterTeams.mpr ⟨row, hrow, heq⟩)
  refine ⟨⟨fun row hrow => ?_, fun team => ?_⟩, fun team row => ?_⟩
  · obtain ⟨members, hload, -⟩ := (hteams row.member.1).1 (mem_listRosterTeams.mpr ⟨row, hrow, rfl⟩)
    have hdec := mapM_eq_ok_iff.mpr (loadRoster_eq_ok hload).2
    exact exists_ok_of_mapM hdec (mem_teamRows.mpr ⟨hrow, rfl⟩)
  · by_cases hlist : team ∈ listRosterTeams durable
    · obtain ⟨members, hload, -⟩ := (hteams team).1 hlist
      exact (loadRoster_eq_ok hload).1
    · have hnone : teamRows team durable = [] := eq_nil_iff_forall_not_mem.mpr (fun row hrow => by
        obtain ⟨hmem, hteam⟩ := mem_teamRows.mp hrow
        exact hunlisted team hlist row hmem hteam)
      simp [hnone]
  · by_cases hlist : team ∈ listRosterTeams durable
    · obtain ⟨members, hload, hrec⟩ := (hteams team).1 hlist
      rw [RosterRuntimeState.loadTeamRoster, hrec]
      exact mem_loadRoster hload
    · rw [RosterRuntimeState.loadTeamRoster, (hteams team).2 hlist]
      exact ⟨nofun, fun hrow => absurd hrow.2 (hunlisted team hlist row hrow.1)⟩

variable {team : TeamName} {failure : Option AtmError} {roster : RosterSnapshot} {written : Table RosterRow.member}
  {other : TeamName} {step : MirrorStep}

section Steps

variable {otherText : Value → String} {view : WriteThroughRoster}

theorem Loadable.saved {durable : Table RosterRow.member}
    (h : Loadable durable) (hsaved : saveRoster otherText failure roster durable = .ok written) : Loadable written := by
  obtain ⟨hcap, -, hteams, hrows⟩ := saveRoster_eq_ok hsaved
  refine ⟨fun row hrow => ?_, fun team => ?_⟩
  · rcases (mem_saved hsaved).mp hrow with ⟨hkept, -⟩ | ⟨member, hm, rfl⟩
    · exact h.decodes row hkept
    · exact ⟨member, rfl⟩
  · -- the rows of a team are those it had, or those of the roster
    have hlen : ∀ table : Table RosterRow.member, (teamRows team table).length =
        (table.rows.filter (fun row => decide (row.member.1 = team))).length := fun table =>
      ((perm_insertionSort _ table.rows).filter _).length_eq
    rw [hlen, hrows, filter_append, List.filter_filter, length_append]
    by_cases hteam : team = roster.teamName
    · have hnone : durable.rows.filter (fun row => decide (row.member.1 = team) &&
          decide (row.member.1 ≠ roster.teamName)) = [] := by
        rw [filter_eq_nil_iff]
        simp [hteam]
      rw [hnone]
      calc 0 + ((roster.members.map RosterMember.row).filter (fun row => decide (row.member.1 = team))).length
          ≤ (roster.members.map RosterMember.row).length := by
            rw [Nat.zero_add]
            exact length_filter_le _ _
        _ ≤ maxCanonicalRosterMembers := by rwa [length_map]
    · have hnone : (roster.members.map RosterMember.row).filter (fun row => decide (row.member.1 = team)) = [] := by
        rw [filter_eq_nil_iff]
        intro row hrow
        obtain ⟨member, hm, rfl⟩ := List.mem_map.mp hrow
        simpa [hteams member hm] using Ne.symm hteam
      have hsub : (durable.rows.filter (fun row => decide (row.member.1 = team) &&
          decide (row.member.1 ≠ roster.teamName))).length ≤
          (durable.rows.filter (fun row => decide (row.member.1 = team))).length :=
        (monotone_filter_right _ (fun row hrow => (Bool.and_eq_true _ _ ▸ hrow).1)).length_le
      rw [hnone, length_nil, Nat.add_zero]
      exact hsub.trans (hlen durable ▸ h.capped team)

theorem loadTeamRoster_replaceRoster {members : List RosterMember} :
    (mirror.replaceRoster team members).loadTeamRoster other =
      if other = team then members else mirror.loadTeamRoster other := by
  rw [RosterRuntimeState.replaceRoster]
  by_cases hempty : members = []
  · by_cases hteam : other = team <;> simp [hempty, hteam, RosterRuntimeState.loadTeamRoster, RosterRuntimeState.set]
  · by_cases hteam : other = team <;>
      simp [hempty, hteam, RosterRuntimeState.loadTeamRoster, RosterRuntimeState.set, TeamRosterRecord.replacedWith]

theorem Faithful.saved (h : Faithful view) (hsaved : saveRoster otherText failure roster view.durable = .ok written) :
    Faithful ⟨written, view.mirror.replaceRoster roster.teamName roster.members⟩ := by
  refine ⟨h.loadable.saved hsaved, fun team row => ?_⟩
  obtain ⟨-, -, hteams, -⟩ := saveRoster_eq_ok hsaved
  rw [loadTeamRoster_replaceRoster]
  by_cases hteam : team = roster.teamName
  · rw [if_pos hteam]
    constructor
    · intro hrow
      obtain ⟨member, hmember, rfl⟩ := List.mem_map.mp hrow
      exact ⟨(mem_saved hsaved).mpr (.inr ⟨member, hmember, rfl⟩), (hteams member hmember).trans hteam.symm⟩
    · rintro ⟨hrow, hkey⟩
      rcases (mem_saved hsaved).mp hrow with ⟨-, hother⟩ | ⟨member, hmember, rfl⟩
      · exact absurd (hkey.trans hteam) hother
      · exact List.mem_map_of_mem hmember
  · rw [if_neg hteam, h.reports team row]
    constructor
    · rintro ⟨hrow, hkey⟩
      exact ⟨(mem_saved hsaved).mpr (.inl ⟨hrow, hkey ▸ hteam⟩), hkey⟩
    · rintro ⟨hrow, hkey⟩
      rcases (mem_saved hsaved).mp hrow with ⟨hkept, -⟩ | ⟨member, hmember, rfl⟩
      · exact ⟨hkept, hkey⟩
      · exact absurd (hkey.symm.trans (hteams member hmember)) hteam

theorem applyUpdates_entries (updates : List RosterRuntimeObservationUpdate) (record : TeamRosterRecord) :
    (TeamRosterRecord.applyUpdates updates record).1.entries = record.entries := by
  induction updates generalizing record with
  | nil => rfl
  | cons update updates ih =>
    rw [TeamRosterRecord.applyUpdates]
    split
    · exact ih _
    · exact ih record

theorem loadTeamRoster_set {record next : TeamRosterRecord} (hrec : mirror.teams team = some record)
    (hents : next.entries = record.entries) (other : TeamName) :
    (mirror.set team (some next)).loadTeamRoster other = mirror.loadTeamRoster other := by
  by_cases hteam : other = team
  · simp [hteam, RosterRuntimeState.loadTeamRoster, RosterRuntimeState.set, hrec, hents]
  · simp [hteam, RosterRuntimeState.loadTeamRoster, RosterRuntimeState.set]

theorem loadTeamRoster_applyRuntimeObservations {updates : List RosterRuntimeObservationUpdate} :
    (mirror.applyRuntimeObservations team updates).2.loadTeamRoster other = mirror.loadTeamRoster other := by
  rw [RosterRuntimeState.applyRuntimeObservations]
  split
  · next record hrec => exact loadTeamRoster_set hrec (applyUpdates_entries updates record) other
  · rfl

theorem loadTeamRoster_setHerdrWakePending (mirror : RosterRuntimeState) (team other : TeamName) (agent : AgentName)
    (pending : Bool) :
    (mirror.setHerdrWakePending team agent pending).2.loadTeamRoster other = mirror.loadTeamRoster other := by
  rw [RosterRuntimeState.setHerdrWakePending]
  split
  · next record hrec =>
    split
    · dsimp only
      rw [loadTeamRoster_set hrec]
      rfl
    · rfl
  · rfl

theorem Faithful.withMirror (h : Faithful view)
    (hents : ∀ team, mirror.loadTeamRoster team = view.mirror.loadTeamRoster team) :
    Faithful { view with mirror := mirror } := by
  refine ⟨h.loadable, fun team row => ?_⟩
  rw [hents team]
  exact h.reports team row

/-- No read of the database fails in the step. -/
def MirrorStep.ReadsSucceed : MirrorStep → Prop
  | .reload reads => reads.teamsFailure = none ∧ ∀ team, reads.rosterFailure team = none
  | _ => True

theorem reloadFromDurable_ok (h : Loadable view.durable) {reads : DurableReads}
    (hreads : (MirrorStep.reload reads).ReadsSucceed) : (reloadFromDurable reads view.durable view.mirror).1 =
      .ok () := by
  rw [reloadFromDurable, hydrateRosterRuntimeFromDurable, hreads.1]
  exact hydrateTeams_ok h hreads.2

theorem Faithful.apply (h : Faithful view) (hreads : step.ReadsSucceed) : Faithful (step.apply otherText view).2 := by
  cases step with
  | save failure roster =>
    rw [MirrorStep.apply]
    split
    · next written hsaved => exact h.saved hsaved
    · exact h
  | observe team updates => exact h.withMirror (fun other => loadTeamRoster_applyRuntimeObservations)
  | wakePending team agent pending =>
    exact h.withMirror (fun other => loadTeamRoster_setHerdrWakePending _ team other agent pending)
  | reload reads => exact Faithful.of_hydrated (Prod.ext (reloadFromDurable_ok h.loadable hreads) rfl)

theorem Faithful.run (h : Faithful view) (steps : List MirrorStep) (hreads : ∀ step ∈ steps, step.ReadsSucceed) :
    Faithful (view.run otherText steps) := by
  induction steps generalizing view with
  | nil => exact h
  | cons step steps ih =>
    obtain ⟨hstep, hsteps⟩ := forall_mem_cons.mp hreads
    exact ih (h.apply hstep) hsteps

theorem Faithful.apply_error (h : Faithful view) (hreads : step.ReadsSucceed) {error : AtmError}
    (hfail : (step.apply otherText view).1 = .error error) : (step.apply otherText view).2.mirror = view.mirror := by
  cases step with
  | save failure roster =>
    rw [MirrorStep.apply] at hfail ⊢
    split
    · next written hsaved =>
      rw [hsaved] at hfail
      cases hfail
    · rfl
  | observe | wakePending => cases hfail
  | reload reads => cases (reloadFromDurable_ok h.loadable hreads).symm.trans hfail

end Steps

/-- In every run in which no read of a reload fails, the mirror has the members of the database after every step, and a
step that fails leaves its members and runtime states as they were. -/
theorem roster_mirror_faithful (otherText : Value → String) (reads : DurableReads) (durable : Table RosterRow.member)
    (view : WriteThroughRoster) (hbuilt : buildWriteThroughRoster reads durable = .ok view) (steps : List MirrorStep)
    (hreads : ∀ step ∈ steps, step.ReadsSucceed) : (view.run otherText steps).Reports ∧
    ∀ step : MirrorStep, step.ReadsSucceed → ∀ error,
      (step.apply otherText (view.run otherText steps)).1 = .error error →
        (step.apply otherText (view.run otherText steps)).2.mirror = (view.run otherText steps).mirror := by
  have hstart : Faithful view := by
    rw [buildWriteThroughRoster] at hbuilt
    split at hbuilt
    · next mirror hhydrated =>
      cases hbuilt
      exact .of_hydrated hhydrated
    · cases hbuilt
  have hrun : Faithful (view.run otherText steps) := hstart.run steps hreads
  exact ⟨hrun.reports, fun step hstep error hfailed => hrun.apply_error hstep hfailed⟩

def sampleRosterTable : Table RosterRow.member :=
  saveRosters sampleOtherText [sampleRosterSave sampleAlpha sampleAnn none,
    sampleRosterSave sampleBeta sampleBen none] .empty

def sampleRosterReads : DurableReads := ⟨none, fun _ => none⟩

/-- A mirror of two teams of one member each. -/
def sampleRosterView : WriteThroughRoster :=
  ⟨sampleRosterTable, (hydrateRosterRuntimeFromDurable sampleRosterReads sampleRosterTable .empty).2⟩

def sampleMirrorSteps : List MirrorStep := [.wakePending sampleAlpha sampleAnn true, .reload sampleRosterReads]

def sampleRefusedSave : MirrorStep := .save (some (.validation "locked")) ⟨sampleAlpha, []⟩

/-- A refused save leaves the mirror, and a reload fills it again. -/
theorem refused_save_leaves_mirror :
    let reached := sampleRosterView.run sampleOtherText sampleMirrorSteps
    reached.Reports ∧ ∀ error, (sampleRefusedSave.apply sampleOtherText reached).1 = .error error →
      (sampleRefusedSave.apply sampleOtherText reached).2.mirror = reached.mirror := by
  have hread : (hydrateRosterRuntimeFromDurable sampleRosterReads sampleRosterTable .empty).1.toBool = true := by
    decide +kernel
  have hbuilt : buildWriteThroughRoster sampleRosterReads sampleRosterTable = .ok sampleRosterView := by
    rw [buildWriteThroughRoster, sampleRosterView]
    split
    · next heq => rw [heq]
    · next heq =>
      rw [heq] at hread
      cases hread
  have hreads : ∀ step ∈ sampleMirrorSteps, step.ReadsSucceed := by
    intro step hstep
    rcases mem_pair.mp hstep with rfl | rfl
    · trivial
    · exact ⟨rfl, fun _ => rfl⟩
  exact (roster_mirror_faithful sampleOtherText sampleRosterReads sampleRosterTable sampleRosterView hbuilt
    sampleMirrorSteps hreads).imp id (fun hfailed => hfailed sampleRefusedSave trivial)

/-- The reads that fail: the list of the teams, or the roster of the second one. -/
def sampleUnlistedTeams : DurableReads := ⟨some (.validation "locked"), fun _ => none⟩

def sampleUnreadRoster : DurableReads :=
  ⟨none, fun team => if team = sampleBeta then some (.validation "locked") else none⟩

/-- A reload that cannot read the database leaves no members, or some of them, and no runtime states. -/
theorem failed_reload_empties_mirror :
    let unlisted := (MirrorStep.reload sampleUnlistedTeams).apply sampleOtherText sampleRosterView
    let woken := sampleRosterView.run sampleOtherText [.wakePending sampleAlpha sampleAnn true]
    let unread := (MirrorStep.reload sampleUnreadRoster).apply sampleOtherText woken
    let wakePending := fun (view : WriteThroughRoster) =>
      (view.mirror.ephemeralState sampleAlpha sampleAnn).map RosterMemberEphemeralState.herdrWakePending
    unlisted.1.toBool = false ∧
    (sampleRosterView.mirror.loadTeamRoster sampleAlpha).map RosterMember.agentName = [sampleAnn] ∧
    (unlisted.2.mirror.loadTeamRoster sampleAlpha).map RosterMember.agentName = [] ∧
    unlisted.2.durable.rows.map RosterRow.member = [(sampleAlpha, sampleAnn), (sampleBeta, sampleBen)] ∧
    unread.1.toBool = false ∧ wakePending woken = some true ∧ wakePending unread.2 = some false ∧
    (unread.2.mirror.loadTeamRoster sampleBeta).map RosterMember.agentName = [] := by
  refine ⟨?_, ?_, ?_, ?_, ?_, ?_, ?_, ?_⟩ <;> decide +kernel

end AtmCore
