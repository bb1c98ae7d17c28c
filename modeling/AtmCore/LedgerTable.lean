import AtmCore.LedgerState
import AtmCore.QueueRenumber

/-! The table of tasks as a picture of the abstract ledger. `Holds` says that the rows without their positions are the
ledger's tasks and that every member's rows stand at the places of the member's queue; while an operation is at work,
the members it has touched are `loose`, and renumbering a member's queue ties the member again. -/

namespace AtmCore

open Rows List Option Function Ranked Table TaskColumns

/-- `row` was written over whatever stood under its key. -/
def Writes (tasks tasks' : TaskTable) (row : TaskColumns) : Prop :=
  ∀ k, tasks'.find? k = if k = row.key then some row else tasks.find? k

variable {tasks tasks' : TaskTable} {team : TeamName} {row : TaskColumns} {member : AgentName} {taskId : TaskId}
  {ids : List TaskId} {bound : Nat} {f : TaskColumns → TaskColumns}
  {ids' : List TaskId} {slot : TaskId → Nat} {m : MemberKey}

theorem updateTask_writes {order : RowOrder} {what : String} {id : TaskId}
    (hrow : tasks.find? (team, id) = some row) (set : TaskColumns → TaskColumns)
    (hset : ∀ row, (set row).key = row.key) (hsound : tasks.Sound taskGuard) (hcheck : (set row).wellFormed = true)
    (hfree : ∀ p, (set row).position = some p → ∀ id' s, OpenFor tasks team (set row).assignee id' s →
      id' ≠ id → s.position ≠ some p) :
    ∃ tasks', updateTasks order what tasks (fun row => decide (row.key = (team, id))) set hset = .ok tasks' ∧
      tasks'.Sound taskGuard ∧ Writes tasks tasks' (set row) := by
  have hf : ∀ r, tasks.find? (team, id) = some r → r = row := fun r hr =>
    some.inj (hr.symm.trans hrow)
  obtain ⟨tasks', hrun, hsound', hfind⟩ := updateTask_spec order what team id set hset hsound
    (fun r hr => by rw [hf r hr]; exact hcheck) (fun r hr => by rw [hf r hr]; exact hfree)
  refine ⟨tasks', hrun, hsound', fun k => ?_⟩
  have hkey : (set row).key = (team, id) := (hset row).trans (key_of_find? hrow)
  rw [hfind, hkey]
  by_cases hk : k = (team, id)
  · rw [if_pos hk, hk, hrow]
    simp [key_of_find? hrow]
  · rw [if_neg hk]
    cases hs : tasks.find? k with
    | none => rfl
    | some s => simp [key_of_find? hs, hk]

theorem insertTask_writes (what : String) (hfr : tasks.find? row.key = none) (hsound : tasks.Sound taskGuard)
    (hcheck : row.wellFormed = true)
    (hfree : ∀ p, row.position = some p → ∀ id s, OpenFor tasks row.team row.assignee id s → s.position ≠ some p) :
    ∃ tasks', insertTask what tasks row = .ok tasks' ∧ tasks'.Sound taskGuard ∧ Writes tasks tasks' row := by
  obtain ⟨tasks', hrun, hrows⟩ := insertRow_eq_ok taskGuard (.constraint .tasksPrimaryKey) tasks row
    hfr (taskGuard_check_eq_none_iff.mpr hcheck) (by
      intro s hs heq
      by_contra hsome
      obtain ⟨⟨team, member, p⟩, hi⟩ := ne_none_iff_exists'.mp hsome
      obtain ⟨rfl, rfl, -, hp⟩ := positionIndex_eq_some_iff.mp hi
      obtain ⟨hopen, hsp⟩ := openFor_of_positionIndex hs (heq.trans hi)
      exact hfree p hp s.taskId s hopen hsp)
  refine ⟨tasks', ?_, insertRow_sound hrun hsound, fun k => ?_⟩
  · simp only [insertTask, hrun]
  · rw [find?_of_rows_append hrows k]
    by_cases hk : row.key = k
    · rw [if_pos hk, if_pos hk.symm]
    · rw [if_neg hk, if_neg (Ne.symm hk)]

theorem openFor_of_writes (h : Writes tasks tasks' row) {id : TaskId} {s : TaskColumns} :
    OpenFor tasks' team member id s ↔ if (team, id) = row.key then s = row ∧ row.assignee = member ∧ row.isOpen = true
      else OpenFor tasks team member id s := by
  unfold OpenFor
  rw [h]
  by_cases hk : (team, id) = row.key
  · rw [if_pos hk, if_pos hk]
    constructor
    · rintro ⟨hs, hm, hopen⟩
      cases hs
      exact ⟨rfl, hm, hopen⟩
    · rintro ⟨rfl, hm, hopen⟩
      exact ⟨rfl, hm, hopen⟩
  · rw [if_neg hk, if_neg hk]

section

variable (hids : Lists tasks team member ids) (h : Writes tasks tasks' row) (hkey : row.key = (team, taskId))
include hids h hkey

/-- The member's list after a row of it was written. -/
theorem Lists.writes_in (hm : row.assignee = member) (hopen : row.isOpen = true) (hnd : ids'.Nodup)
    (hmem : ∀ id, id ∈ ids' ↔ id = taskId ∨ id ∈ ids) : Lists tasks' team member ids' := by
  refine ⟨hnd, fun id => ?_⟩
  rw [hmem]
  simp only [openFor_of_writes h, hkey, Prod.mk.injEq, true_and]
  by_cases hid : id = taskId
  · simp [hid, hm, hopen]
  · simp only [hid, false_or, if_false]
    exact hids.mem_iff id

theorem Lists.writes_out (hout : ¬ (row.assignee = member ∧ row.isOpen = true)) :
    Lists tasks' team member (ids.filter (· ≠ taskId)) := by
  refine ⟨hids.nodup.filter _, fun id => ?_⟩
  simp only [mem_filter, decide_eq_true_eq, openFor_of_writes h, hkey, Prod.mk.injEq, true_and]
  by_cases hid : id = taskId
  · simp [hid, hout]
  · simp only [hid, not_false_eq_true, and_true, if_false, ne_eq]
    exact hids.mem_iff id

end

theorem Ranked.congr (h : Ranked tasks team member ids slot)
    (hopen : ∀ id row, OpenFor tasks' team member id row ↔ OpenFor tasks team member id row) :
    Ranked tasks' team member ids slot where
  mem_of_open hrow := h.mem_of_open ((hopen _ _).mp hrow)
  open_of_mem hid := by
    obtain ⟨row, hrow⟩ := h.open_of_mem hid
    exact ⟨row, (hopen _ _).mpr hrow⟩
  rising := h.rising

/-- Away from the written task the member's order stays what it was. -/
theorem Ranked.writes_out (h : Ranked tasks team member ids slot)
    (hwr : Writes tasks tasks' row) (hkey : row.key = (team, taskId))
    (hout : ¬ (row.assignee = member ∧ row.isOpen = true)) :
    Ranked tasks' team member (ids.filter (· ≠ taskId)) slot := by
  have hlists := h.lists.writes_out hwr hkey hout
  refine ⟨fun {id s} hs => ⟨(hlists.mem_iff id).mpr ⟨s, hs⟩, ?_⟩, fun hid => (hlists.mem_iff _).mp hid,
    h.rising.filter _⟩
  rw [openFor_of_writes hwr] at hs
  split at hs
  · exact absurd hs.2 hout
  · exact (h.mem_of_open hs).2

theorem Lists.of_mem_iff (hids : Lists tasks team member ids) (hnd : ids'.Nodup)
    (hmem : ∀ id, id ∈ ids' ↔ id ∈ ids) : Lists tasks team member ids' :=
  ⟨hnd, fun id => (hmem id).trans (hids.mem_iff id)⟩

theorem Lists.congr (hids : Lists tasks team member ids)
    (hopen : ∀ id row, OpenFor tasks' team member id row ↔ OpenFor tasks team member id row) :
    Lists tasks' team member ids :=
  ⟨hids.nodup, fun id => (hids.mem_iff id).trans (exists_congr (fun row => (hopen id row).symm))⟩

/-- No open row of the member stands above `bound`. -/
def Below (tasks : TaskTable) (team : TeamName) (member : AgentName) (bound : Nat) : Prop :=
  ∀ id row p, OpenFor tasks team member id row → row.position = some p → p ≤ bound

theorem Below.maxPosition_le (h : Below tasks team member bound) : maxPosition tasks team member ≤ bound := by
  refine max_le_of_forall_le _ _ (fun p hp => ?_)
  obtain ⟨row, hrow, hpos⟩ := mem_filterMap.mp hp
  exact h row.taskId row p (mem_openRows.mp hrow).2 hpos

theorem Below.writes (h : Below tasks team member bound) (hwr : Writes tasks tasks' row)
    (hrow : ∀ p, row.position = some p → p ≤ bound) : Below tasks' team member bound := by
  intro id s p hs hp
  rw [openFor_of_writes hwr] at hs
  split at hs
  · exact hrow p (hs.1 ▸ hp)
  · exact h id s p hs hp

theorem Below.mono {a b : Nat} (h : Below tasks team member a) (hab : a ≤ b) : Below tasks team member b :=
  fun id row p hrow hp => (h id row p hrow hp).trans hab

theorem Below.congr (h : Below tasks team member bound)
    (hopen : ∀ id row, OpenFor tasks' team member id row ↔ OpenFor tasks team member id row) :
    Below tasks' team member bound :=
  fun id row p hrow hp => h id row p ((hopen id row).mp hrow) hp

theorem Queued.below (h : Queued tasks team member ids) : Below tasks team member ids.length := by
  intro id row p hrow hp
  obtain ⟨hid, hplace⟩ := mem_of_open h hrow
  obtain rfl := some.inj (hp.symm.trans hplace)
  exact place_le_length hid

/-- Repositioning the open rows of one member leaves those of every other member alone. -/
theorem openFor_frame (hf : Repositions f) (hfind : ∀ k, tasks'.find? k = (tasks.find? k).map f)
    {m' : MemberKey} (hother : ∀ row ∈ tasks.rows, row.queuedFor m.team m.agent = false → f row = row)
    (hne : m' ≠ m) (id : TaskId) (row : TaskColumns) :
    OpenFor tasks' m'.team m'.agent id row ↔ OpenFor tasks m'.team m'.agent id row := by
  have hfix : ∀ r, OpenFor tasks m'.team m'.agent id r → f r = r := by
    intro r hr
    refine hother r (mem_of_find? hr.1) ?_
    rw [Bool.eq_false_iff]
    intro hq
    obtain ⟨hteam, hm, -⟩ := queuedFor_iff.mp hq
    have hteam' : r.team = m'.team := congrArg Prod.fst (key_of_find? hr.1)
    apply hne
    cases m
    cases m'
    simp only [MemberKey.mk.injEq]
    exact ⟨hteam'.symm.trans hteam, hr.2.1.symm.trans hm⟩
  rw [openFor_repositioned_iff hf hfind]
  constructor
  · rintro ⟨r, hr, rfl⟩
    rw [hfix r hr]
    exact hr
  · intro hrow
    exact ⟨row, hrow, hfix row hrow⟩

theorem Repositions.core (hf : Repositions f) (row : TaskColumns) : (f row).core = row.core := by
  obtain ⟨p, hp⟩ := hf row
  rw [hp]
  rfl

/-- The table pictures the tasks and the queues, up to the members that are `loose`. -/
structure Holds (loose : MemberKey → Prop) (tasks : TaskTable) (task : TaskKey → Option TaskColumns)
    (queue : MemberKey → List TaskId) : Prop where
  sound : tasks.Sound taskGuard
  core : ∀ k, (tasks.find? k).map TaskColumns.core = task k
  queued : ∀ m, ¬ loose m → Queued tasks m.team m.agent (queue m)
  short : ∀ m, ¬ loose m → (queue m).length < 2 ^ 32

namespace Holds

variable {loose : MemberKey → Prop} {tasks tasks' : TaskTable} {task : TaskKey → Option TaskColumns}
  {queue : MemberKey → List TaskId}

theorem mono {loose' : MemberKey → Prop} (h : Holds loose tasks task queue)
    (hle : ∀ m, loose m → loose' m) : Holds loose' tasks task queue where
  sound := h.sound
  core := h.core
  queued m hm := h.queued m (fun hl => hm (hle m hl))
  short m hm := h.short m (fun hl => hm (hle m hl))

variable (h : Holds loose tasks task queue)
include h

section

variable (hwr : Writes tasks tasks' row) (hsound : tasks'.Sound taskGuard) (hkey : row.key = (team, taskId))
include hwr hsound hkey

/-- The written row loosens the member it enters and the member it leaves. -/
theorem writes : Holds (fun m => loose m ∨ m = ⟨team, row.assignee⟩ ∨
        ∃ old, tasks.find? (team, taskId) = some old ∧ old.isOpen = true ∧ m = ⟨team, old.assignee⟩)
      tasks' (Function.update task (team, taskId) (some row.core)) queue where
  sound := hsound
  core k := by
    rw [hwr, hkey]
    by_cases hk : k = (team, taskId)
    · rw [if_pos hk, hk, update_self]
      rfl
    · rw [if_neg hk, update_of_ne hk, h.core]
  queued m hm := by
    have hloose : ¬ loose m := fun hl => hm (.inl hl)
    refine Ranked.congr (h.queued m hloose) (fun id s => ?_)
    rw [openFor_of_writes hwr, hkey]
    by_cases hk : (m.team, id) = (team, taskId)
    · rw [if_pos hk]
      have hteam : m.team = team := congrArg Prod.fst hk
      constructor
      · rintro ⟨-, hmember, -⟩
        exact absurd (.inr (.inl (by rw [← hteam, hmember]))) hm
      · rintro ⟨hs, hmember, hopen⟩
        exact absurd (.inr (.inr ⟨s, hk ▸ hs, hopen, by rw [← hteam, hmember]⟩)) hm
    · rw [if_neg hk]
  short m hm := h.short m (fun hl => hm (.inl hl))

/-- A write that keeps assignee, openness and position loosens nothing. -/
theorem writes_in_place {old : TaskColumns} (hold : tasks.find? (team, taskId) = some old)
    (hto : row.assignee = old.assignee) (hopen : row.isOpen = old.isOpen) (hpos : row.position = old.position) :
    Holds loose tasks' (Function.update task (team, taskId) (some row.core)) queue where
  sound := hsound
  core := (h.writes hwr hsound hkey).core
  queued m hm := by
    have hq := h.queued m hm
    have hsame : ∀ {id}, (m.team, id) = row.key →
        ((∃ s, OpenFor tasks' m.team m.agent id s) ↔ OpenFor tasks m.team m.agent id old) := by
      intro id hk
      simp only [openFor_of_writes hwr, if_pos hk, exists_eq_left]
      unfold OpenFor
      rw [hk, hkey, hold, hto, hopen]
      simp
    refine ⟨fun {id s} hs => ?_, fun {id} hid => ?_, hq.rising⟩
    · by_cases hk : (m.team, id) = row.key
      · have hrow : s = row := ((if_pos hk) ▸ (openFor_of_writes hwr).mp hs).1
        rw [hrow, hpos]
        exact hq.mem_of_open ((hsame hk).mp ⟨s, hs⟩)
      · rw [openFor_of_writes hwr, if_neg hk] at hs
        exact hq.mem_of_open hs
    · obtain ⟨s, hs⟩ := hq.open_of_mem hid
      by_cases hk : (m.team, id) = row.key
      · have hs' : s = old := some.inj (hs.1.symm.trans ((hk.trans hkey) ▸ hold))
        exact (hsame hk).mpr (hs' ▸ hs)
      · exact ⟨s, by rw [openFor_of_writes hwr, if_neg hk]; exact hs⟩
  short := h.short

end

theorem core_of_repositions (hf : Repositions f) (hfind : ∀ k, tasks'.find? k = (tasks.find? k).map f) (k : TaskKey) :
    (tasks'.find? k).map TaskColumns.core = task k := by
  have hcomp : TaskColumns.core ∘ f = TaskColumns.core := funext hf.core
  rw [hfind, Option.map_map, hcomp, h.core]

theorem renumber (order : RowOrder) (m : MemberKey)
    (hids : Lists tasks m.team m.agent ids) (hlen : ids.length < 2 ^ 32)
    (hbelow : Below tasks m.team m.agent (2 ^ 34)) :
    ∃ tasks', renumberQueue order m.team m.agent ids tasks = .ok tasks' ∧
      Holds (fun m' => loose m' ∧ m' ≠ m) tasks' task (Function.update queue m ids) ∧ ∀ m', m' ≠ m → ∀ id row,
        OpenFor tasks' m'.team m'.agent id row ↔ OpenFor tasks m'.team m'.agent id row := by
  have hmax := hbelow.maxPosition_le
  obtain ⟨tasks', hrun, hs, hfind⟩ := renumberQueue_spec order h.sound hids (by omega)
  have hf := renumbered_repositions m.team m.agent ids
  have hframe : ∀ m', m' ≠ m → ∀ id row,
      OpenFor tasks' m'.team m'.agent id row ↔ OpenFor tasks m'.team m'.agent id row := fun m' hne =>
    openFor_frame hf hfind (fun row _ hrow => by simp [TaskColumns.renumbered, hrow]) hne
  refine ⟨tasks', hrun, ⟨hs, h.core_of_repositions hf hfind, fun m' hm' => ?_, fun m' hm' => ?_⟩, hframe⟩
  · by_cases hne : m' = m
    · subst hne
      rw [update_self]
      exact queued_of_renumbered hids hfind
    · rw [update_of_ne hne]
      exact Ranked.congr (h.queued m' (fun hl => hm' ⟨hl, hne⟩)) (hframe m' hne)
  · by_cases hne : m' = m
    · subst hne
      rwa [update_self]
    · rw [update_of_ne hne]
      exact h.short m' (fun hl => hm' ⟨hl, hne⟩)

/-- Parking a task above its queue while the rest of the queue closes up. -/
theorem release (order : RowOrder) (what : String) (hm : ¬ loose m) (hmem : taskId ∈ queue m) {rest : List TaskId}
    (hrest : rest = (queue m).filter (· ≠ taskId)) :
    ∃ tasks', (shiftPositions order what tasks m.team m.agent (rest.length + 1) >>=
        writeQueuePositions order m.team rest) = .ok tasks' ∧
      Holds (fun m' => loose m' ∨ m' = m) tasks' task queue ∧ (∀ m', m' ≠ m → ∀ id row,
        OpenFor tasks' m'.team m'.agent id row ↔ OpenFor tasks m'.team m'.agent id row) ∧
      (∀ id row, OpenFor tasks' m.team m.agent id row → id ∈ queue m ∧
        (id ≠ taskId → row.position = some (place rest id))) ∧
      (∀ id ∈ queue m, ∃ row, OpenFor tasks' m.team m.agent id row) := by
  have hqd := h.queued m hm
  have hnd : (queue m).Nodup := Ranked.nodup hqd
  have hlen : rest.length + 1 = (queue m).length := by
    rw [hrest]
    exact length_filter_ne hnd hmem
  have hsub : ∀ id ∈ rest, id ∈ queue m := fun id hid => mem_of_mem_filter (hrest ▸ hid)
  have hshort := h.short m hm
  have hmax : maxPosition tasks m.team m.agent ≤ rest.length + 1 := by
    rw [hlen]
    exact hqd.maxPosition_eq.le
  obtain ⟨tasks', hrun, hs, hfind⟩ := shift_write_spec order what h.sound
    (hrest ▸ hnd.filter _) (fun id hid => open_of_mem hqd (hsub id hid)) hmax
    (Nat.le_add_right rest.length 1) (by omega)
  have hf := parked_repositions m.team m.agent (rest.length + 1) rest
  have hopen := @openFor_repositioned_iff tasks tasks' _ hf hfind m.team m.agent
  have hframe : ∀ m', m' ≠ m → ∀ id row,
      OpenFor tasks' m'.team m'.agent id row ↔ OpenFor tasks m'.team m'.agent id row := fun m' hne =>
    openFor_frame hf hfind (fun row hrow hother => ?_) hne
  · refine ⟨tasks', hrun, ⟨hs, h.core_of_repositions hf hfind, fun m' hm' => ?_, fun m' hm' => ?_⟩,
      hframe, fun id row hrow => ?_, fun id hid => ?_⟩
    · exact Ranked.congr (h.queued m' (fun hl => hm' (.inl hl))) (hframe m' (fun he => hm' (.inr he)))
    · exact h.short m' (fun hl => hm' (.inl hl))
    · obtain ⟨r, hr, rfl⟩ := hopen.mp hrow
      have hid : id ∈ queue m := (mem_of_open hqd hr).1
      refine ⟨hid, fun hne => ?_⟩
      have hin : id ∈ rest := by
        rw [hrest]
        exact mem_filter.mpr ⟨hid, decide_eq_true hne⟩
      obtain ⟨hmem', rfl⟩ := hr.mem
      have hteam := (mem_openRows.mp hmem').1
      have hq : r.queuedFor m.team m.agent = true := (mem_filter.mp hmem').2
      simp [TaskColumns.parked, TaskColumns.placed, hq, hteam, hin]
    · obtain ⟨r, hr⟩ := open_of_mem hqd hid
      exact ⟨_, hopen.mpr ⟨r, hr, rfl⟩⟩
  · have hout : ¬ (row.team = m.team ∧ row.taskId ∈ rest) := by
      rintro ⟨hteam, hid⟩
      obtain ⟨r, hr⟩ := open_of_mem hqd (hsub _ hid)
      have heq : row = r := by
        rw [← hteam] at hr
        exact some.inj ((find?_key hrow).symm.trans hr.1)
      have hq : row.queuedFor m.team m.agent = true := queuedFor_iff.mpr ⟨hteam, heq ▸ hr.2⟩
      exact Bool.false_ne_true (hother.symm.trans hq)
    simp only [TaskColumns.parked, TaskColumns.placed, hother, if_neg hout, Bool.false_eq_true, if_false]

end Holds

end AtmCore
