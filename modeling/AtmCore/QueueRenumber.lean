import AtmCore.Fallible
import AtmCore.QueueOrder

/-! Why no statement of a renumbering meets the unique index. Lifting a member's positions by at least the highest of
them moves every row above every row that is still to be moved, in any row order. Writing `1..n` afterwards finds each
slot free, because what is not yet written is above `n`. Each statement is described by what a lookup finds after it. -/

namespace AtmCore

open Rows List Option Table

variable {row : TaskColumns} {team : TeamName} {member : AgentName} {p : Nat} {tasks : TaskTable}
  {ids : List TaskId} {offset : Nat}

theorem TaskColumns.positionIndex_eq_some_iff : row.positionIndex = some (team, member, p) ↔
      row.team = team ∧ row.assignee = member ∧ row.isOpen = true ∧ row.position = some p := by
  unfold TaskColumns.positionIndex
  cases row.isOpen <;> cases row.position <;> simp

theorem taskGuard_check_eq_none_iff : taskGuard.check row = none ↔ row.wellFormed = true := by
  simp [taskGuard]

theorem TaskColumns.wellFormed_iff : row.wellFormed = true ↔ (∀ p, row.position = some p → 1 ≤ p) ∧
      (row.state = .complete ↔ row.closeOutcome.isSome = true) ∧ (row.state = .complete ↔ row.position = none) := by
  unfold TaskColumns.wellFormed
  cases row.position <;> cases row.closeOutcome <;> simp

theorem openFor_of_positionIndex (hrow : row ∈ tasks.rows) (h : row.positionIndex = some (team, member, p)) :
    OpenFor tasks team member row.taskId row ∧ row.position = some p := by
  obtain ⟨rfl, hm, hopen, hp⟩ := TaskColumns.positionIndex_eq_some_iff.mp h
  exact ⟨⟨find?_key hrow, hm, hopen⟩, hp⟩

/-- No other open row of the member stands where an open row stands. -/
theorem position_free (hsound : tasks.Sound taskGuard) {a b : TaskId} {r s : TaskColumns}
    (hr : OpenFor tasks team member a r) (hs : OpenFor tasks team member b s) (hne : b ≠ a)
    (hp : r.position = some p) : s.position ≠ some p := by
  intro hsp
  have hrkey := key_of_find? hr.1
  have hskey := key_of_find? hs.1
  have hrindex : r.positionIndex = some (team, member, p) :=
    TaskColumns.positionIndex_eq_some_iff.mpr ⟨congrArg Prod.fst hrkey, hr.2.1, hr.2.2, hp⟩
  have hsindex : s.positionIndex = some (team, member, p) :=
    TaskColumns.positionIndex_eq_some_iff.mpr ⟨congrArg Prod.fst hskey, hs.2.1, hs.2.2, hsp⟩
  have hkeys : s.key ≠ r.key := by
    rw [hrkey, hskey]
    simpa using hne
  have hnone := hsound.unique s (mem_of_find? hs.1) r (mem_of_find? hr.1) hkeys
    (hsindex.trans hrindex.symm)
  exact some_ne_none _ (hsindex.symm.trans hnone)

/-- An `UPDATE` whose new positions are free of every other row, before and after. -/
theorem updateTasks_spec (order : RowOrder) (what : String) {tasks : TaskTable}
    {selects : TaskColumns → Bool} {set : TaskColumns → TaskColumns}
    (hset : ∀ row, (set row).key = row.key) (hsound : tasks.Sound taskGuard)
    (hcheck : ∀ row ∈ tasks.rows, selects row = true → (set row).wellFormed = true)
    (hfree : ∀ r ∈ tasks.rows, selects r = true → ∀ s ∈ tasks.rows, s.key ≠ r.key →
      ∀ i, (set r).positionIndex = some i →
        s.positionIndex ≠ some i ∧ (selects s = true → (set s).positionIndex ≠ some i)) :
    ∃ tasks', updateTasks order what tasks selects set hset = .ok tasks' ∧ tasks'.Sound taskGuard ∧
      ∀ k, tasks'.find? k = (tasks.find? k).map (fun row => if selects row then set row else row) := by
  set keys := (tasks.rows.filter selects).map TaskColumns.key with hkeys
  have hmem : ∀ row ∈ tasks.rows, (row.key ∈ keys ↔ selects row = true) := by
    intro row hrow
    rw [hkeys, List.mem_map]
    constructor
    · rintro ⟨s, hs, hkey⟩
      obtain ⟨hsrow, hsel⟩ := mem_filter.mp hs
      exact tasks.eq_of_key_eq hsrow hrow hkey ▸ hsel
    · intro hsel
      exact ⟨row, mem_filter.mpr ⟨hrow, hsel⟩, rfl⟩
  have hsep : tasks.Separated taskGuard.index keys set := by
    intro r hr s hs hne i hri hsi
    rcases hri with hri | ⟨hrk, hri⟩ <;> rcases hsi with hsi | ⟨hsk, hsi⟩
    · exact some_ne_none _ (hri.symm.trans (hsound.unique r hr s hs hne (hri.trans hsi.symm)))
    · exact (hfree s hs ((hmem s hs).mp hsk) r hr hne i hsi).1 hri
    · exact (hfree r hr ((hmem r hr).mp hrk) s hs hne.symm i hri).1 hsi
    · exact (hfree r hr ((hmem r hr).mp hrk) s hs hne.symm i hri).2 ((hmem s hs).mp hsk) hsi
  have hrun := updateRows_eq_of_separated hset hsep
    (fun row hrow hk => taskGuard_check_eq_none_iff.mpr (hcheck row hrow ((hmem row hrow).mp hk)))
    (tasks.nodup.sublist (filter_sublist.map _)) (order.perm tasks keys)
  refine ⟨tasks.mapKeys keys set hset, ?_, updateRows_sound hrun hsound, fun k => ?_⟩
  · simp only [updateTasks, ← hkeys, hrun]
  · rw [Table.mapKeys, find?_mapRows]
    cases hk : tasks.find? k with
    | none => rfl
    | some row => simp [hmem row (mem_of_find? hk)]

/-- An `UPDATE` of one task, to a position that no other open row of its new assignee holds. -/
theorem updateTask_spec (order : RowOrder) (what : String) {tasks : TaskTable} (team : TeamName)
    (id : TaskId) (set : TaskColumns → TaskColumns) (hset : ∀ row, (set row).key = row.key)
    (hsound : tasks.Sound taskGuard) (hcheck : ∀ row, tasks.find? (team, id) = some row → (set row).wellFormed = true)
    (hfree : ∀ row, tasks.find? (team, id) = some row → ∀ p, (set row).position = some p →
      ∀ id' s, OpenFor tasks team (set row).assignee id' s → id' ≠ id → s.position ≠ some p) :
    ∃ tasks', updateTasks order what tasks (fun row => decide (row.key = (team, id))) set hset = .ok tasks' ∧
      tasks'.Sound taskGuard ∧
      ∀ k, tasks'.find? k = (tasks.find? k).map (fun row => if row.key = (team, id) then set row else row) := by
  have hfind : ∀ row ∈ tasks.rows, decide (row.key = (team, id)) = true → tasks.find? (team, id) = some row := by
    intro row hrow hkey
    exact of_decide_eq_true hkey ▸ find?_key hrow
  have hspec := updateTasks_spec order what hset hsound
    (fun row hrow hkey => hcheck row (hfind row hrow hkey)) (by
      rintro r hr hrkey s hs hne ⟨team', member, p⟩ hi
      have hkey : r.key = (team, id) := of_decide_eq_true hrkey
      refine ⟨fun hsi => ?_, fun hskey => absurd ((of_decide_eq_true hskey).trans hkey.symm) hne⟩
      obtain ⟨hteam, rfl, -, hp⟩ := TaskColumns.positionIndex_eq_some_iff.mp hi
      have hteam' : team' = team := hteam.symm.trans (congrArg Prod.fst ((hset r).trans hkey))
      subst hteam'
      obtain ⟨hsopen, hsp⟩ := openFor_of_positionIndex hs hsi
      refine hfree r (hfind r hr hrkey) p hp s.taskId s hsopen (fun hid => hne ?_) hsp
      rw [hkey, ← hid]
      exact (key_of_find? hsopen.1))
  simpa only [decide_eq_true_eq] using hspec

/-- Lifting a member's positions above every one of them. -/
theorem shiftPositions_spec {order : RowOrder} {what : String} (hsound : tasks.Sound taskGuard)
    (hbd : maxPosition tasks team member ≤ offset) :
    ∃ tasks', shiftPositions order what tasks team member offset = .ok tasks' ∧ tasks'.Sound taskGuard ∧
      ∀ k, tasks'.find? k = (tasks.find? k).map (fun row => if row.queuedFor team member then
        { row with position := row.position.map (· + offset) } else row) := by
  refine updateTasks_spec order what _ hsound ?_ ?_
  · intro row hrow _
    have hwf := taskGuard_check_eq_none_iff.mp (hsound.check row hrow)
    rw [TaskColumns.wellFormed_iff] at hwf ⊢
    cases hp : row.position with
    | none => simpa [hp] using hwf
    | some p =>
      have := hwf.1 p hp
      simp [hp] at hwf ⊢
      exact ⟨by omega, hwf.2⟩
  · rintro r hr hrsel s hs hne ⟨team', member', q⟩ hi
    obtain ⟨rfl, rfl, hopen⟩ := TaskColumns.queuedFor_iff.mp hrsel
    obtain ⟨hteam, hm, -, hq⟩ := TaskColumns.positionIndex_eq_some_iff.mp hi
    obtain ⟨p, hp, rfl⟩ := map_eq_some_iff.mp hq
    have hwf := taskGuard_check_eq_none_iff.mp (hsound.check r hr)
    have hpos := (TaskColumns.wellFormed_iff.mp hwf).1 p hp
    constructor
    · intro hsi
      obtain ⟨hsteam, hsmember, hsopen, hsq⟩ := TaskColumns.positionIndex_eq_some_iff.mp hsi
      have hmem : s ∈ openRows tasks r.team r.assignee := by
        refine mem_filter.mpr ⟨hs, TaskColumns.queuedFor_iff.mpr ⟨?_, ?_, hsopen⟩⟩
        · exact hsteam.trans hteam.symm
        · exact hsmember.trans hm.symm
      have hle := le_maxPosition hmem hsq
      omega
    · intro hssel hsi
      obtain ⟨hsteam, hsmember, hsopen⟩ := TaskColumns.queuedFor_iff.mp hssel
      obtain ⟨-, -, -, hsq⟩ := TaskColumns.positionIndex_eq_some_iff.mp hsi
      obtain ⟨p', hp', hpp⟩ := map_eq_some_iff.mp hsq
      have heq : p' = p := Nat.add_right_cancel hpp
      have hidx : s.positionIndex = r.positionIndex := by
        simp [TaskColumns.positionIndex, hopen, hsopen, hsteam, hsmember, hp, hp', heq]
      have hnone := hsound.unique s hs r hr hne hidx
      simp [taskGuard, TaskColumns.positionIndex, hsopen, hp'] at hnone

/-- A change of the position column and nothing else. -/
def Repositions (f : TaskColumns → TaskColumns) : Prop :=
  ∀ row, ∃ p, f row = { row with position := p }

theorem openFor_repositioned_iff {tasks tasks' : TaskTable} {f : TaskColumns → TaskColumns}
    (hf : Repositions f) (hfind : ∀ k, tasks'.find? k = (tasks.find? k).map f) {team : TeamName}
    {member : AgentName} {id : TaskId} {row : TaskColumns} :
    OpenFor tasks' team member id row ↔ ∃ r, OpenFor tasks team member id r ∧ f r = row := by
  unfold OpenFor
  rw [hfind]
  constructor
  · rintro ⟨hrow, hm, hopen⟩
    obtain ⟨r, hr, rfl⟩ := map_eq_some_iff.mp hrow
    obtain ⟨p, hp⟩ := hf r
    rw [hp] at hm hopen
    exact ⟨r, ⟨hr, hm, hopen⟩, rfl⟩
  · rintro ⟨r, ⟨hr, hm, hopen⟩, rfl⟩
    obtain ⟨p, hp⟩ := hf r
    rw [hr, hp]
    exact ⟨by rw [map_some, hp], hm, hopen⟩

/-- The row after the positions of the listed ids have been written from `index` on. -/
def TaskColumns.placed (team : TeamName) (index : Nat) (ids : List TaskId) (row : TaskColumns) :
    TaskColumns :=
  if row.team = team ∧ row.taskId ∈ ids then { row with position := some (index + place ids row.taskId) }
  else row

theorem TaskColumns.placed_cons {index : Nat} {id : TaskId} (hid : id ∉ ids) (row : TaskColumns) :
    (if row.key = (team, id) then { row with position := some (index + 1) } else row).placed team
      (index + 1) ids = row.placed team index (id :: ids) := by
  by_cases hteam : row.team = team
  · by_cases hrow : row.taskId = id
    · simp [placed, key, hteam, hrow, hid, place]
    · simp only [placed, key, hteam, hrow, Prod.mk.injEq, and_false, if_false, true_and, mem_cons,
        false_or, place_cons_of_ne (Ne.symm hrow)]
      have hsum : index + 1 + place ids row.taskId = index + (place ids row.taskId + 1) := by omega
      rw [hsum]
  · simp [placed, key, hteam]

theorem TaskColumns.placed_repositions {index : Nat} : Repositions (placed team index ids) := by
  intro row
  unfold placed
  split
  · exact ⟨_, rfl⟩
  · exact ⟨row.position, rfl⟩

/-- Writing consecutive positions into slots that no open row of the member holds. -/
theorem writeQueuePositionsFrom_spec (order : RowOrder) (team : TeamName) (member : AgentName)
    (ids : List TaskId) : ∀ {index : Nat} {tasks : TaskTable}, tasks.Sound taskGuard → ids.Nodup →
      (∀ id ∈ ids, ∃ row, OpenFor tasks team member id row) → index + ids.length < 2 ^ 63 →
      (∀ id row p, OpenFor tasks team member id row → row.position = some p → index < p → index + ids.length < p) →
      ∃ tasks', writeQueuePositionsFrom order team index ids tasks = .ok tasks' ∧ tasks'.Sound taskGuard ∧
        ∀ k, tasks'.find? k = (tasks.find? k).map (TaskColumns.placed team index ids) := by
  -- the slots still to be written stay free: a step only occupies the slot just below them
  induction ids with
  | nil =>
    intro index tasks hsound _ _ _ _
    refine ⟨tasks, rfl, hsound, fun k => ?_⟩
    cases tasks.find? k <;> simp [TaskColumns.placed]
  | cons id ids ih =>
    intro index tasks hsound hnd hopen hlen hfree
    obtain ⟨hid, hnd'⟩ := nodup_cons.mp hnd
    obtain ⟨row, hrow⟩ := hopen id mem_cons_self
    have hlength : (id :: ids).length = ids.length + 1 := length_cons
    have hwr : ∀ r, tasks.find? (team, id) = some r → r = row := fun r hr =>
      some.inj (hr.symm.trans hrow.1)
    have hstate := (TaskColumns.wellFormed_iff.mp
      (taskGuard_check_eq_none_iff.mp (hsound.check row (mem_of_find? hrow.1)))).2
    have hcomplete : row.state ≠ .complete := of_decide_eq_true hrow.2.2
    obtain ⟨tasks₁, hrun, hsound₁, hfind₁⟩ := updateTask_spec order "failed to renumber task queue"
      team id (fun row => { row with position := some (index + 1) }) (fun _ => rfl) hsound
      (fun r hr => by
        rw [hwr r hr, TaskColumns.wellFormed_iff]
        exact ⟨by simp, hstate.1, by simp [hcomplete]⟩)
      (fun r hr p hp id' s hs _ hsp => by
        obtain rfl := hwr r hr
        rw [hrow.2.1] at hs
        have hp' : index + 1 = p := some.inj hp
        have := hfree id' s p hs hsp (by omega)
        omega)
    have hopen₁ := @openFor_repositioned_iff tasks tasks₁ _ (fun r => by
      split
      · exact ⟨_, rfl⟩
      · exact ⟨r.position, rfl⟩) hfind₁ team member
    obtain ⟨tasks₂, hrun₂, hsound₂, hfind₂⟩ := @ih (index + 1) tasks₁ hsound₁ hnd' (fun id' hid' => by
        obtain ⟨r, hr⟩ := hopen id' (mem_cons_of_mem _ hid')
        exact ⟨_, hopen₁.mpr ⟨r, hr, rfl⟩⟩)
      (by omega)
      (fun id' s p hs hp hlt => by
        obtain ⟨r, hr, rfl⟩ := hopen₁.mp hs
        split at hp
        · have hp' : index + 1 = p := some.inj hp
          omega
        · have := hfree id' r p hr hp (by omega)
          omega)
    refine ⟨tasks₂, ?_, hsound₂, fun k => ?_⟩
    · rw [writeQueuePositionsFrom, if_neg (by omega), hrun]
      exact hrun₂
    · rw [hfind₂, hfind₁, Option.map_map]
      congr 1
      funext r
      exact TaskColumns.placed_cons hid r

/-- The row after a member's positions were lifted and the listed ids written over them. -/
def TaskColumns.parked (team : TeamName) (member : AgentName) (offset : Nat) (ids : List TaskId)
    (row : TaskColumns) : TaskColumns :=
  (if row.queuedFor team member then { row with position := row.position.map (· + offset) } else row).placed
    team 0 ids

theorem TaskColumns.parked_repositions (team : TeamName) (member : AgentName) (offset : Nat)
    (ids : List TaskId) : Repositions (parked team member offset ids) := by
  intro row
  unfold parked
  obtain ⟨p, hp⟩ := placed_repositions
    (if row.queuedFor team member then { row with position := row.position.map (· + offset) } else row)
  rw [hp]
  split
  · exact ⟨p, rfl⟩
  · exact ⟨p, rfl⟩

/-- The two phases together, for open tasks of one member that need not be all of its tasks. -/
theorem shift_write_spec (order : RowOrder) (what : String) (hs : tasks.Sound taskGuard)
    (hnd : ids.Nodup) (hopen : ∀ id ∈ ids, ∃ row, OpenFor tasks team member id row)
    (hmax : maxPosition tasks team member ≤ offset) (hlen : ids.length ≤ offset) (hsize : ids.length < 2 ^ 63) :
    ∃ tasks', (shiftPositions order what tasks team member offset >>= writeQueuePositions order team ids) =
        .ok tasks' ∧ tasks'.Sound taskGuard ∧
      ∀ k, tasks'.find? k = (tasks.find? k).map (TaskColumns.parked team member offset ids) := by
  obtain ⟨tasks₁, hrun₁, hsound₁, hfind₁⟩ := shiftPositions_spec hs hmax
  have hopen₁ := @openFor_repositioned_iff tasks tasks₁ _ (fun r => by
    split
    · exact ⟨_, rfl⟩
    · exact ⟨r.position, rfl⟩) hfind₁ team member
  obtain ⟨tasks₂, hrun₂, hsound₂, hfind₂⟩ := @writeQueuePositionsFrom_spec order team member ids 0 tasks₁
    hsound₁ hnd
    (fun id hid => by
      obtain ⟨r, hr⟩ := hopen id hid
      exact ⟨_, hopen₁.mpr ⟨r, hr, rfl⟩⟩)
    (by omega)
    (fun id row p hrow hp _ => by
      obtain ⟨r, hr, rfl⟩ := hopen₁.mp hrow
      have hqd : r.queuedFor team member = true :=
        TaskColumns.queuedFor_iff.mpr ⟨(mem_openRows.mp hr.mem.1).1, hr.2⟩
      rw [if_pos hqd] at hp
      obtain ⟨q, hq, rfl⟩ := map_eq_some_iff.mp hp
      have hrow := mem_of_find? hr.1
      have hpos := (TaskColumns.wellFormed_iff.mp
        (taskGuard_check_eq_none_iff.mp (hs.check r hrow))).1 q hq
      omega)
  refine ⟨tasks₂, ?_, hsound₂, fun k => ?_⟩
  · rw [hrun₁]
    exact hrun₂
  · rw [hfind₂, hfind₁, Option.map_map]
    rfl

/-- The row after its member's queue was numbered as `ids`. -/
def TaskColumns.renumbered (team : TeamName) (member : AgentName) (ids : List TaskId) (row : TaskColumns) :
    TaskColumns :=
  if row.queuedFor team member then { row with position := some (place ids row.taskId) } else row

theorem TaskColumns.renumbered_repositions (team : TeamName) (member : AgentName) (ids : List TaskId) :
    Repositions (renumbered team member ids) := by
  intro row
  unfold renumbered
  split
  · exact ⟨_, rfl⟩
  · exact ⟨row.position, rfl⟩

/-- The list names exactly the open tasks of the member, in any order. -/
structure Lists (tasks : TaskTable) (team : TeamName) (member : AgentName) (ids : List TaskId) : Prop where
  nodup : ids.Nodup
  mem_iff : ∀ id, id ∈ ids ↔ ∃ row, OpenFor tasks team member id row

theorem Ranked.lists {slot : TaskId → Nat} (h : Ranked tasks team member ids slot) : Lists tasks team member ids :=
  ⟨h.nodup, fun _ => h.mem_iff⟩

theorem queued_of_renumbered {tasks' : TaskTable} (hids : Lists tasks team member ids)
    (hfind : ∀ k, tasks'.find? k = (tasks.find? k).map (TaskColumns.renumbered team member ids)) :
    Queued tasks' team member ids := by
  have hopen := @openFor_repositioned_iff tasks tasks' _
    (TaskColumns.renumbered_repositions team member ids) hfind team member
  refine ⟨fun {id row} hrow => ?_, fun {id} hid => ?_, place_rising hids.nodup⟩
  · obtain ⟨r, hr, rfl⟩ := hopen.mp hrow
    refine ⟨(hids.mem_iff id).mpr ⟨r, hr⟩, ?_⟩
    obtain ⟨hmem, rfl⟩ := hr.mem
    have hq : r.queuedFor team member = true := (mem_filter.mp hmem).2
    simp [TaskColumns.renumbered, hq]
  · obtain ⟨r, hr⟩ := (hids.mem_iff id).mp hid
    exact ⟨_, hopen.mpr ⟨r, hr, rfl⟩⟩

theorem Lists.parked_eq_renumbered (hids : Lists tasks team member ids) (hrow : row ∈ tasks.rows) :
    row.parked team member offset ids = row.renumbered team member ids := by
  by_cases hq : row.queuedFor team member = true
  · have hmem : row ∈ openRows tasks team member := mem_filter.mpr ⟨hrow, hq⟩
    obtain ⟨rfl, hopen⟩ := mem_openRows.mp hmem
    have hid : row.taskId ∈ ids := (hids.mem_iff _).mpr ⟨row, hopen⟩
    simp [TaskColumns.parked, TaskColumns.placed, TaskColumns.renumbered, hq, hid]
  · have hother : ¬ (row.team = team ∧ row.taskId ∈ ids) := by
      rintro ⟨rfl, hid⟩
      obtain ⟨r, hr⟩ := (hids.mem_iff _).mp hid
      have heq : row = r := some.inj ((find?_key hrow).symm.trans hr.1)
      exact hq (TaskColumns.queuedFor_iff.mpr ⟨rfl, heq ▸ hr.2⟩)
    simp only [TaskColumns.parked, TaskColumns.placed, TaskColumns.renumbered, if_neg hq, if_neg hother]

theorem renumberQueue_spec (order : RowOrder) (hs : tasks.Sound taskGuard)
    (hids : Lists tasks team member ids) (hsize : maxPosition tasks team member + ids.length < 2 ^ 63) :
    ∃ tasks', renumberQueue order team member ids tasks = .ok tasks' ∧ tasks'.Sound taskGuard ∧
      ∀ k, tasks'.find? k = (tasks.find? k).map (TaskColumns.renumbered team member ids) := by
  obtain ⟨tasks', hrun, hs', hfind⟩ := shift_write_spec order "failed to offset task queue" hs
    hids.nodup (fun id hid => (hids.mem_iff id).mp hid)
    (Nat.le_add_right (maxPosition tasks team member) ids.length) (Nat.le_add_left _ _) (by omega)
  have hfind' : ∀ k, tasks'.find? k = (tasks.find? k).map (TaskColumns.renumbered team member ids) := by
    intro k
    rw [hfind k]
    cases hk : tasks.find? k with
    | none => rfl
    | some row =>
      simp only [map_some, some.injEq]
      exact hids.parked_eq_renumbered (mem_of_find? hk)
  have hq := queued_of_renumbered hids hfind'
  refine ⟨tasks', ?_, hs', hfind'⟩
  obtain ⟨tasks₁, hshift, hwrite⟩ := Fallible.bind_eq_ok.mp hrun
  unfold renumberQueue
  rw [if_neg (by omega), hshift, Fallible.bind_ok, hwrite, Fallible.bind_ok, if_neg]
  · rfl
  · rw [Ranked.length_eq hq, hq.maxPosition_eq]
    exact fun h => h rfl

end AtmCore
