import AtmCore.Fallible
import AtmCore.RosterStore

/-! The names of the roster. An accepted save makes no two members go by one name that did not before. The names of
the database are read by a query that trims spaces only and takes any JSON value for an alias, so this holds as long
as the stored aliases are texts whose outer white space is spaces. -/

namespace AtmCore

open Rows KeyedLists Fallible List

def RosterRow.aliasValue (row : RosterRow) : Option Value :=
  row.metadata.bind (fun metadata => metadata.get aliasMetadataKey)

def RosterRow.uniqueName (row : RosterRow) : RosterUniqueName :=
  ⟨row.member.1, row.member.2, effectiveName row.aliasValue row.member.2⟩

/-- No alias, or a text whose outer white space is spaces. -/
def PlainAlias : Option Value → Prop
  | none | some .null => True
  | some (.string text) => trimSpaces text = trim text
  | some _ => False

def PlainAliases (durable : Table RosterRow.member) : Prop := ∀ row ∈ durable.rows, PlainAlias row.aliasValue

/-- Two members that go by one name. -/
def Collides (durable : Table RosterRow.member) (left right : TeamName × AgentName) : Prop :=
  left ≠ right ∧ ∃ a ∈ durable.rows, ∃ b ∈ durable.rows, a.member = left ∧ b.member = right ∧
    a.uniqueName.uniqueName = b.uniqueName.uniqueName

@[simp] theorem RosterMember.row_member (member : RosterMember) :
    member.row.member = (member.teamName, member.agentName) :=
  rfl

@[simp] theorem RosterMember.row_uniqueName (member : RosterMember) :
    member.row.uniqueName = RosterUniqueName.fromMember member := rfl

variable {row : RosterRow} {durable : Table RosterRow.member} {member : RosterMember} {name : RosterUniqueName}

section Names

variable {otherText : Value → String} {failure : Option AtmError} {roster : RosterSnapshot}
  {durable written : Table RosterRow.member} {names proposed : List RosterUniqueName}

theorem storedUniqueName_of_plain {metadata : Value} {agentName : AgentName}
    (h : PlainAlias (metadata.get aliasMetadataKey)) :
    storedUniqueName otherText metadata agentName = effectiveName (metadata.get aliasMetadataKey) agentName := by
  rw [storedUniqueName, effectiveName, trimmedAlias]
  generalize metadata.get aliasMetadataKey = value at h ⊢
  cases value with
  | none => rfl
  | some value =>
    cases value with
    | null => rfl
    | string text =>
      have htrim : trimSpaces text = trim text := h
      simp [extractedText, Value.asStr, htrim]
    | _ => exact h.elim

theorem loadUniqueName_of_plain (hplain : PlainAlias row.aliasValue)
    (h : loadUniqueName otherText row = .ok name) : name = row.uniqueName := by
  obtain ⟨member, metadata⟩ := row
  cases metadata with
  | none => cases h
  | some metadata =>
    dsimp only [loadUniqueName] at h
    rw [storedUniqueName_of_plain hplain] at h
    exact (Except.ok.inj h).symm

/-- The names the query gives are those the members go by. -/
theorem mem_loadUniqueNames (hplain : PlainAliases durable) (h : loadUniqueNames otherText durable = .ok names) :
    name ∈ names ↔ ∃ row ∈ durable.rows, row.uniqueName = name := by
  have hrows : ∀ row ∈ durable.rows.insertionSort rosterRowOrder, ∀ name,
      loadUniqueName otherText row = .ok name → name = row.uniqueName :=
    fun row hrow name hname => loadUniqueName_of_plain (hplain row ((mem_insertionSort _).mp hrow)) hname
  rw [loadUniqueNames, mapM_eq_ok_iff] at h
  have hnames : names = (durable.rows.insertionSort rosterRowOrder).map RosterRow.uniqueName := by
    generalize durable.rows.insertionSort rosterRowOrder = rows at h hrows
    induction h with
    | nil => rfl
    | cons hhead _ ih =>
      rw [map_cons, hrows _ mem_cons_self _ hhead,
        ih (fun row hrow => hrows row (mem_cons_of_mem _ hrow))]
  rw [hnames]
  simp

theorem mem_rosterUniqueNameCollisions {left right : RosterUniqueName} (hleft : left ∈ names) (hr : right ∈ names)
    (hne : left ≠ right) (hname : left.uniqueName = right.uniqueName) : left ∈ rosterUniqueNameCollisions names := by
  refine mem_repeatedRuns ?_ ((mem_insertionSort _).mpr hleft) ((mem_insertionSort _).mpr hr) hne hname
  refine (pairwise_insertionSort _ names).imp (fun hle => ?_)
  rcases Prod.Lex.toLex_le_toLex.mp hle with hlt | ⟨heq, -⟩
  · exact hlt.le
  · exact heq.le

/-- A proposed name that is not written is the one that is persisted. -/
theorem persisted_of_not_written {entry : RosterUniqueName} (hentry : entry ∈ proposed)
    (h : entry ∉ rosterWriteDelta names proposed) : entry ∈ names := by
  rw [rosterWriteDelta, mem_filter, not_and] at h
  have hunchanged := h hentry
  cases hf : names.find? (fun known => decide (known.teamName = entry.teamName) &&
      decide (known.agentName = entry.agentName)) with
  | none => simp [hf] at hunchanged
  | some known =>
    have hkey := find?_some hf
    have hsame : known = entry := by
      cases known
      cases entry
      simp_all
    exact hsame ▸ mem_of_find?_eq_some hf

/-- What the check has established when it passes. -/
theorem enforceRosterUniqueNames_eq_ok (h : enforceRosterUniqueNames otherText roster durable = .ok ()) :
    ∃ names, loadUniqueNames otherText durable = .ok names ∧
      ∀ entry ∈ rosterWriteDelta names (roster.members.map RosterUniqueName.fromMember),
        entry ∉ rosterUniqueNameCollisions
          (names.filter (fun persisted => decide (persisted.teamName ≠ roster.teamName)) ++
            roster.members.map RosterUniqueName.fromMember) := by
  obtain ⟨names, hname, h⟩ := bind_eq_ok.mp h
  refine ⟨names, hname, fun entry hentry hcollision => ?_⟩
  dsimp only at h
  split at h
  · split at h <;> cases h
  · rw [if_neg (by simp [ne_nil_of_mem hentry])] at h
    split at h
    · next hempty =>
      rw [List.isEmpty_iff, filter_eq_nil_iff] at hempty
      refine hempty entry hcollision (decide_eq_true (List.mem_map_of_mem ?_))
      exact mem_filter.mpr ⟨hcollision, decide_eq_true hentry⟩
    · cases h

theorem insertRosterMembers_eq_ok {team : TeamName} {members : List RosterMember}
    (h : members.foldlM (insertRosterMember team) durable = .ok written) :
    (∀ member ∈ members, member.teamName = team) ∧ written.rows = durable.rows ++ members.map RosterMember.row := by
  induction members generalizing durable with
  | nil =>
    cases h
    simp
  | cons member members ih =>
    rw [foldlM_cons] at h
    obtain ⟨inserted, hins, h⟩ := bind_eq_ok.mp h
    obtain ⟨hteams, hrows⟩ := ih h
    rw [insertRosterMember] at hins
    split at hins
    · cases hins
    · next hteam =>
      split at hins
      · next table hnew =>
        cases hins
        obtain ⟨-, hnewRows⟩ := (Table.insertNew_eq_some_iff _ _).mp hnew
        refine ⟨forall_mem_cons.mpr ⟨not_not.mp hteam, hteams⟩, ?_⟩
        rw [hrows, hnewRows, map_cons, append_assoc, singleton_append]
      · cases hins

theorem RosterRow.member_eq {a b : RosterRow} (h : a.uniqueName = b.uniqueName) : a.member = b.member := by
  ext1
  · exact congrArg RosterUniqueName.teamName h
  · exact congrArg RosterUniqueName.agentName h

variable (h : saveRoster otherText failure roster durable = .ok written)
include h

theorem saveRoster_eq_ok :
    roster.members.length ≤ maxCanonicalRosterMembers ∧ enforceRosterUniqueNames otherText roster durable = .ok () ∧
      (∀ member ∈ roster.members, member.teamName = roster.teamName) ∧
      written.rows = durable.rows.filter (fun row => decide (row.member.1 ≠ roster.teamName)) ++
        roster.members.map RosterMember.row := by
  rw [saveRoster.eq_def] at h
  split at h
  · cases h
  · next hcap =>
    cases failure with
    | some error => cases h
    | none =>
      obtain ⟨_, henforced, h⟩ := bind_eq_ok.mp h
      exact ⟨Nat.le_of_not_lt hcap, henforced, insertRosterMembers_eq_ok h⟩

theorem mem_saved :
    row ∈ written.rows ↔ row ∈ durable.rows ∧ row.member.1 ≠ roster.teamName ∨
      ∃ member ∈ roster.members, member.row = row := by
  obtain ⟨-, -, -, hrows⟩ := saveRoster_eq_ok h
  simp [hrows]

variable (hplain : PlainAliases durable)
include hplain

theorem written_or_kept (hname : loadUniqueNames otherText durable = .ok names) (hrow : row ∈ written.rows) :
    row.uniqueName ∈ rosterWriteDelta names (roster.members.map RosterUniqueName.fromMember) ∨
      ∃ kept ∈ durable.rows, kept.uniqueName = row.uniqueName := by
  rcases (mem_saved h).mp hrow with ⟨hkept, -⟩ | ⟨member, hm, rfl⟩
  · exact .inr ⟨row, hkept, rfl⟩
  · by_cases hwr : member.row.uniqueName ∈ rosterWriteDelta names (roster.members.map RosterUniqueName.fromMember)
    · exact .inl hwr
    · have hproposed : member.row.uniqueName ∈ roster.members.map RosterUniqueName.fromMember :=
        List.mem_map_of_mem hm
      exact .inr ((mem_loadUniqueNames hplain hname).mp (persisted_of_not_written hproposed hwr))

theorem compared (hname : loadUniqueNames otherText durable = .ok names) (hrow : row ∈ written.rows) :
    row.uniqueName ∈ names.filter (fun persisted => decide (persisted.teamName ≠ roster.teamName)) ++
      roster.members.map RosterUniqueName.fromMember := by
  rcases (mem_saved h).mp hrow with ⟨hkept, hteam⟩ | ⟨member, hm, rfl⟩
  · refine mem_append_left _ (mem_filter.mpr ⟨?_, decide_eq_true hteam⟩)
    exact (mem_loadUniqueNames hplain hname).mpr ⟨row, hkept, rfl⟩
  · exact mem_append_right _ (List.mem_map_of_mem hm)

theorem collides_of_saved {left right : TeamName × AgentName} (hcollides : Collides written left right) :
    Collides durable left right := by
  obtain ⟨hne, a, ha, b, hb, rfl, rfl, hname⟩ := hcollides
  obtain ⟨names, hnames, hfree⟩ := enforceRosterUniqueNames_eq_ok (saveRoster_eq_ok h).2.1
  have hdistinct : a.uniqueName ≠ b.uniqueName := fun heq => hne (RosterRow.member_eq heq)
  have hleft := mem_rosterUniqueNameCollisions (compared h hplain hnames ha) (compared h hplain hnames hb)
    hdistinct hname
  have hr := mem_rosterUniqueNameCollisions (compared h hplain hnames hb) (compared h hplain hnames ha)
    hdistinct.symm hname.symm
  obtain ⟨a', ha', hkeptA⟩ := (written_or_kept h hplain hnames ha).resolve_left (fun hwr => hfree _ hwr hleft)
  obtain ⟨b', hb', hkeptB⟩ := (written_or_kept h hplain hnames hb).resolve_left (fun hwr => hfree _ hwr hr)
  refine ⟨hne, a', ha', b', hb', RosterRow.member_eq hkeptA, RosterRow.member_eq hkeptB, ?_⟩
  rw [hkeptA, hkeptB, hname]

end Names

/-- A save as it is asked for; with `failure` the database fails in it. -/
structure RosterSave where
  failure : Option AtmError
  roster : RosterSnapshot

def RosterSave.apply (otherText : Value → String) (save : RosterSave) (durable : Table RosterRow.member) :
    Table RosterRow.member :=
  match saveRoster otherText save.failure save.roster durable with
  | .ok written => written
  | .error _ => durable

def saveRosters (otherText : Value → String) (saves : List RosterSave) (durable : Table RosterRow.member) :
    Table RosterRow.member :=
  saves.foldl (fun durable save => save.apply otherText durable) durable

def RosterSave.PlainAliases (save : RosterSave) : Prop :=
  ∀ member ∈ save.roster.members, PlainAlias (Value.lookup member.metadataJson aliasMetadataKey)

def EffectiveNamesUnique (durable : Table RosterRow.member) : Prop := ∀ left right, ¬ Collides durable left right

theorem RosterSave.apply_unique {otherText : Value → String} {save : RosterSave} (hsave : save.PlainAliases)
    (hplain : AtmCore.PlainAliases durable) (huniq : EffectiveNamesUnique durable) :
    AtmCore.PlainAliases (save.apply otherText durable) ∧ EffectiveNamesUnique (save.apply otherText durable) := by
  rw [RosterSave.apply]
  split
  · next written hsaved =>
    refine ⟨fun row hrow => ?_, fun left right hcollides =>
      huniq left right (collides_of_saved hsaved hplain hcollides)⟩
    rcases (mem_saved hsaved).mp hrow with ⟨hkept, -⟩ | ⟨member, hm, rfl⟩
    · exact hplain row hkept
    · exact hsave member hm
  · exact ⟨hplain, huniq⟩

theorem saveRosters_unique {otherText : Value → String} {saves : List RosterSave}
    (hsaves : ∀ save ∈ saves, save.PlainAliases) (hplain : PlainAliases durable)
    (huniq : EffectiveNamesUnique durable) : EffectiveNamesUnique (saveRosters otherText saves durable) := by
  induction saves generalizing durable with
  | nil => exact huniq
  | cons save saves ih =>
    obtain ⟨hsave, hsaves⟩ := forall_mem_cons.mp hsaves
    have hnext := @RosterSave.apply_unique durable otherText save hsave hplain huniq
    exact ih hsaves hnext.1 hnext.2

def RosterMember.hasAlias (candidate : AgentName) (member : RosterMember) : Bool :=
  decide (trimmedAlias (Value.lookup member.metadataJson aliasMetadataKey) = some candidate.val)

def resolveRosterAliasWithOwner (candidate : AgentName) (addressedTeam : TeamName)
    (addressedRoster allRosters : List RosterMember) (allowDatabaseWideAlias : Bool) : TeamName × AgentName :=
  if addressedRoster.any (fun member => decide (member.agentName = candidate)) then (addressedTeam, candidate)
  else
    match addressedRoster.find? (RosterMember.hasAlias candidate) with
    | some member => (addressedTeam, member.agentName)
    | none =>
      match if allowDatabaseWideAlias then allRosters.find? (RosterMember.hasAlias candidate) else none with
      | some member => (member.teamName, member.agentName)
      | none => (addressedTeam, candidate)

def rosterEntries (durable : Table RosterRow.member) : List RosterMember :=
  durable.rows.filterMap (fun row => (buildRosterMember row).toOption)

theorem buildRosterMember_row (h : (buildRosterMember row).toOption = some member) : member.row = row := by
  rw [buildRosterMember.eq_def] at h
  split at h
  · next members hmetadata =>
    cases h
    obtain ⟨key, metadata⟩ := row
    rw [RosterMember.row, ← hmetadata]
  · cases h

theorem mem_rosterEntries (h : member ∈ rosterEntries durable) : member.row ∈ durable.rows := by
  obtain ⟨row, hrow, hbuilt⟩ := mem_filterMap.mp h
  exact buildRosterMember_row hbuilt ▸ hrow

variable {candidate : AgentName}

theorem RosterMember.effectiveName_of_hasAlias (h : member.hasAlias candidate = true) :
    member.row.uniqueName.uniqueName = candidate.val := by
  have halias := of_decide_eq_true h
  have hname : candidate.val ≠ "" := fun hempty => by
    have hval := candidate.valid
    simp [validatePathSegment, hempty] at hval
  have hkept : (!candidate.val.isEmpty) = true := by simp [hname]
  simp only [RosterMember.row_uniqueName, RosterUniqueName.fromMember, effectiveName, halias, Option.filter_some, hkept]
  rfl

theorem hasAlias_unique (huniq : EffectiveNamesUnique durable) {a b : RosterMember}
    (ha : a ∈ rosterEntries durable) (hb : b ∈ rosterEntries durable) (hleft : a.hasAlias candidate = true)
    (hr : b.hasAlias candidate = true) : a = b := by
  have hkey : a.row.member = b.row.member := by
    by_contra hne
    refine huniq _ _ ⟨hne, a.row, mem_rosterEntries ha, b.row, mem_rosterEntries hb, rfl, rfl, ?_⟩
    rw [a.effectiveName_of_hasAlias hleft, b.effectiveName_of_hasAlias hr]
  have hrow := durable.eq_of_key_eq (mem_rosterEntries ha) (mem_rosterEntries hb) hkey
  cases a
  cases b
  simpa [RosterMember.row, and_assoc] using hrow

/-- A name resolves to the same owner in every order of the rosters. -/
theorem resolve_of_perm (huniq : EffectiveNamesUnique durable)
    {addressedTeam : TeamName} {allow : Bool} {addressed addressed' all all' : List RosterMember}
    (haddressed : addressed.Perm addressed') (hall : all.Perm all')
    (hms : ∀ a ∈ addressed, a ∈ rosterEntries durable) (hents : ∀ a ∈ all, a ∈ rosterEntries durable) :
    resolveRosterAliasWithOwner candidate addressedTeam addressed all allow =
      resolveRosterAliasWithOwner candidate addressedTeam addressed' all' allow := by
  have hany : addressed.any (fun member => decide (member.agentName = candidate)) =
      addressed'.any (fun member => decide (member.agentName = candidate)) := haddressed.any_eq
  have hfind : addressed.find? (RosterMember.hasAlias candidate) = addressed'.find? (RosterMember.hasAlias candidate) :=
    find?_of_perm haddressed (fun a ha b hb => hasAlias_unique huniq (hms a ha) (hms b hb))
  have hwide : all.find? (RosterMember.hasAlias candidate) = all'.find? (RosterMember.hasAlias candidate) :=
    find?_of_perm hall (fun a ha b hb => hasAlias_unique huniq (hents a ha) (hents b hb))
  rw [resolveRosterAliasWithOwner, resolveRosterAliasWithOwner, hany, hfind, hwide]

/-- From an empty database, saves of plain aliases keep the names unique, and resolve to one owner in every order of the
rosters; and from any database with plain aliases an accepted save makes no collision. -/
theorem effective_names_stay_unique (otherText : Value → String) :
    (∀ saves : List RosterSave, (∀ save ∈ saves, save.PlainAliases) →
      EffectiveNamesUnique (saveRosters otherText saves .empty) ∧
      ∀ candidate addressedTeam allow, ∀ addressed addressed' all all' : List RosterMember,
        addressed.Perm ((rosterEntries (saveRosters otherText saves .empty)).filter
          (fun member => decide (member.teamName = addressedTeam))) → addressed'.Perm addressed →
        all.Perm (rosterEntries (saveRosters otherText saves .empty)) → all'.Perm all →
        resolveRosterAliasWithOwner candidate addressedTeam addressed' all' allow =
          resolveRosterAliasWithOwner candidate addressedTeam addressed all allow) ∧
    (∀ (durable written : Table RosterRow.member) (save : RosterSave), PlainAliases durable →
      saveRoster otherText save.failure save.roster durable = .ok written →
      ∀ left right, Collides written left right → Collides durable left right) := by
  refine ⟨fun saves hsaves => ?_, fun durable written save hplain hsaved left right =>
    collides_of_saved hsaved hplain⟩
  have hunique : EffectiveNamesUnique (saveRosters otherText saves .empty) :=
    saveRosters_unique hsaves nofun (fun left right ⟨_, a, ha, _⟩ => by cases ha)
  refine ⟨hunique, fun candidate addressedTeam allow addressed addressed' all all' haddressed hother hall hothers => ?_⟩
  refine (resolve_of_perm hunique hother.symm hothers.symm (fun a ha => ?_) (fun a ha => hall.mem_iff.mp ha)).symm
  exact (mem_filter.mp (haddressed.mem_iff.mp ha)).1

def sampleAlpha : TeamName := ⟨"alpha", by decide⟩

def sampleBeta : TeamName := ⟨"beta", by decide⟩

def sampleAnn : AgentName := ⟨"ann", by decide⟩

def sampleBen : AgentName := ⟨"ben", by decide⟩

def sampleBob : AgentName := ⟨"bob", by decide⟩

/-- A member that may have an alias. -/
def sampleRosterMember (team : TeamName) (agent : AgentName) (value : Option Value) : RosterMember :=
  ⟨team, agent, (value.map (fun value => (aliasMetadataKey, value))).toList⟩

def sampleRosterSave (team : TeamName) (agent : AgentName) (value : Option Value) : RosterSave :=
  ⟨none, team, [sampleRosterMember team agent value]⟩

/-- SQLite's text of a number; the other values do not occur. -/
def sampleOtherText : Value → String
  | .posInt value => toString value
  | _ => ""

/-- The second save takes the alias of the first, and is refused. -/
theorem second_alias_refused :
    (saveRosters sampleOtherText [sampleRosterSave sampleAlpha sampleAnn (some (.string " bob ")),
      sampleRosterSave sampleBeta sampleBen (some (.string "bob"))] .empty).rows.map RosterRow.uniqueName =
        [⟨sampleAlpha, sampleAnn, "bob"⟩] ∧
    EffectiveNamesUnique (saveRosters sampleOtherText [sampleRosterSave sampleAlpha sampleAnn (some (.string " bob ")),
      sampleRosterSave sampleBeta sampleBen (some (.string "bob"))] .empty) := by
  refine ⟨by decide +kernel, ((effective_names_stay_unique sampleOtherText).1 _ (fun save hsave => ?_)).1⟩
  rw [mem_pair] at hsave
  rcases hsave with rfl | rfl
  · intro member hmember
    rw [mem_singleton.mp hmember]
    show trimSpaces " bob " = trim " bob "
    decide +kernel
  · intro member hmember
    rw [mem_singleton.mp hmember]
    show trimSpaces "bob" = trim "bob"
    decide +kernel

/-- The first alias starts with a tab. -/
def sampleHidden : Table RosterRow.member :=
  saveRosters sampleOtherText [sampleRosterSave sampleAlpha sampleAnn (some (.string "\tbob")),
    sampleRosterSave sampleBeta sampleBen (some (.string "bob"))] .empty

/-- A tab before the alias hides it from the check of the next save, and so does an alias that is a number. Two
members then go by one name, and the order of the rosters decides whose it is. -/
theorem hidden_alias_collides :
    sampleHidden.rows.map RosterRow.uniqueName = [⟨sampleAlpha, sampleAnn, "bob"⟩, ⟨sampleBeta, sampleBen, "bob"⟩] ∧
    ¬ EffectiveNamesUnique sampleHidden ∧
    resolveRosterAliasWithOwner sampleBob ⟨"gamma", by decide⟩ [] (rosterEntries sampleHidden) true =
      (sampleAlpha, sampleAnn) ∧
    resolveRosterAliasWithOwner sampleBob ⟨"gamma", by decide⟩ [] (rosterEntries sampleHidden).reverse true =
      (sampleBeta, sampleBen) ∧
    (saveRosters sampleOtherText [sampleRosterSave sampleAlpha sampleAnn (some (.posInt 5)),
      sampleRosterSave sampleBeta sampleAnn none] .empty).rows.map RosterRow.uniqueName =
        [⟨sampleAlpha, sampleAnn, "ann"⟩, ⟨sampleBeta, sampleAnn, "ann"⟩] := by
  have hnames : sampleHidden.rows.map RosterRow.uniqueName =
      [⟨sampleAlpha, sampleAnn, "bob"⟩, ⟨sampleBeta, sampleBen, "bob"⟩] := by decide +kernel
  refine ⟨hnames, fun hunique => ?_, by decide +kernel, by decide +kernel, by decide +kernel⟩
  have hmem : ∀ name ∈ sampleHidden.rows.map RosterRow.uniqueName, ∃ row ∈ sampleHidden.rows, row.uniqueName = name :=
    fun name hname => List.mem_map.mp hname
  rw [hnames] at hmem
  obtain ⟨a, ha, hnameA⟩ := hmem _ mem_cons_self
  obtain ⟨b, hb, hnameB⟩ := hmem _ (mem_cons_of_mem _ mem_cons_self)
  refine hunique a.member b.member ⟨fun heq => ?_, a, ha, b, hb, rfl, rfl, ?_⟩
  · have hteam : a.uniqueName.teamName = b.uniqueName.teamName := congrArg Prod.fst heq
    rw [hnameA, hnameB] at hteam
    exact absurd hteam (by decide)
  · rw [hnameA, hnameB]

end AtmCore
