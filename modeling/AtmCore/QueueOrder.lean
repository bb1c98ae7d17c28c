import AtmCore.TaskQueue
import Mathlib.Data.List.MinMax
import Mathlib.Data.List.Pairwise
import Mathlib.Order.Nat
import Mathlib.Data.String.Basic

/-! What a member's queue is, independent of the table: a list of task ids without repetition. A table is `Ranked` by
the list when the member's open rows are the listed tasks and their positions rise along the list; it is `Queued` when
the positions are moreover 1, 2, 3 and so on. -/

namespace AtmCore

open Rows List

/-- The row of an id is an open row of the member. -/
def OpenFor (tasks : TaskTable) (team : TeamName) (member : AgentName) (id : TaskId) (row : TaskColumns) :
    Prop :=
  tasks.find? (team, id) = some row ∧ row.assignee = member ∧ row.isOpen = true

variable {team : TeamName} {member : AgentName} {row : TaskColumns} {tasks : TaskTable} {id : TaskId}
  {ids : List TaskId}

theorem TaskColumns.queuedFor_iff :
    row.queuedFor team member = true ↔ row.team = team ∧ row.assignee = member ∧ row.isOpen = true := by
  simp [TaskColumns.queuedFor, and_assoc]

theorem mem_openRows :
    row ∈ openRows tasks team member ↔ row.team = team ∧ OpenFor tasks team member row.taskId row := by
  unfold openRows OpenFor
  rw [mem_filter, TaskColumns.queuedFor_iff, Table.find?_eq_some_iff]
  constructor
  · rintro ⟨hrow, rfl, hto, hopen⟩
    exact ⟨rfl, ⟨hrow, rfl⟩, hto, hopen⟩
  · rintro ⟨hteam, ⟨hrow, -⟩, hto, hopen⟩
    exact ⟨hrow, hteam, hto, hopen⟩

theorem OpenFor.mem (h : OpenFor tasks team member id row) : row ∈ openRows tasks team member ∧ row.taskId = id := by
  obtain ⟨hteam, hid⟩ := Prod.ext_iff.mp (Table.key_of_find? h.1)
  have hrow : row.taskId = id := hid
  exact ⟨mem_openRows.mpr ⟨hteam, hrow ▸ h⟩, hrow⟩

theorem openRows_nodup_ids : ((openRows tasks team member).map TaskColumns.taskId).Nodup := by
  have hkeys : ((openRows tasks team member).map TaskColumns.key).Nodup :=
    tasks.nodup.sublist (filter_sublist.map _)
  refine List.Nodup.of_map (fun id => (team, id)) ?_
  rw [List.map_map]
  have hcongr : (openRows tasks team member).map ((fun id => (team, id)) ∘ TaskColumns.taskId) =
      (openRows tasks team member).map TaskColumns.key := by
    refine map_congr_left (fun row hrow => ?_)
    obtain ⟨rfl, -⟩ := mem_openRows.mp hrow
    rfl
  rwa [hcongr]

/-- The open rows of a member are the ids of the list, at positions that rise along it. -/
structure Ranked (tasks : TaskTable) (team : TeamName) (member : AgentName) (ids : List TaskId)
    (slot : TaskId → Nat) : Prop where
  mem_of_open : ∀ {id row}, OpenFor tasks team member id row → id ∈ ids ∧ row.position = some (slot id)
  open_of_mem : ∀ {id}, id ∈ ids → ∃ row, OpenFor tasks team member id row
  rising : ids.Pairwise (fun a b => slot a < slot b)

/-- The 1-based place of an id in a list. -/
def place (ids : List TaskId) (id : TaskId) : Nat := ids.idxOf id + 1

/-- The open rows of a member are the ids of the list, at positions 1, 2, 3 and so on. -/
def Queued (tasks : TaskTable) (team : TeamName) (member : AgentName) (ids : List TaskId) : Prop :=
  Ranked tasks team member ids (place ids)

theorem place_le_length (h : id ∈ ids) : place ids id ≤ ids.length := idxOf_lt_length_of_mem h

theorem place_cons_of_ne {a b : TaskId} (h : a ≠ b) : place (a :: ids) b = place ids b + 1 := by
  simp [place, idxOf_cons_ne _ h]

theorem place_rising (h : ids.Nodup) : ids.Pairwise (fun a b => place ids a < place ids b) := by
  rw [pairwise_iff_getElem]
  intro i j hi hj hij
  simp only [place]
  rw [h.idxOf_getElem i hi, h.idxOf_getElem j hj]
  omega

theorem map_place (h : ids.Nodup) : ids.map (place ids) = range' 1 ids.length := by
  refine ext_getElem (by simp) (fun i hi hj => ?_)
  simp only [length_map] at hi
  simp [place, h.idxOf_getElem i hi]
  omega

theorem length_filter_ne (h : ids.Nodup) (hid : id ∈ ids) : (ids.filter (· ≠ id)).length + 1 = ids.length := by
  have hne : (fun x => decide (x ≠ id)) = (fun x => x != id) := by
    funext x
    simp [bne, BEq.beq]
  rw [hne, ← h.erase_eq_filter, length_erase_of_mem hid]
  have := length_pos_of_mem hid
  omega

instance : Std.Total TaskColumns.queuedBefore where
  total r s := by
    unfold TaskColumns.queuedBefore
    rcases Nat.lt_trichotomy (r.position.getD 0) (s.position.getD 0) with h | h | h
    · exact .inl (.inl h)
    · rcases le_total r.taskId.val s.taskId.val with hle | hle
      · exact .inl (.inr ⟨h, hle⟩)
      · exact .inr (.inr ⟨h.symm, hle⟩)
    · exact .inr (.inl h)

instance : IsTrans TaskColumns TaskColumns.queuedBefore where
  trans r s u := by
    unfold TaskColumns.queuedBefore
    rintro (h | ⟨h, hle⟩) (h' | ⟨h', hle'⟩)
    · exact .inl (by omega)
    · exact .inl (by omega)
    · exact .inl (by omega)
    · exact .inr ⟨h.trans h', hle.trans hle'⟩

namespace Ranked

variable {tasks : TaskTable} {team : TeamName} {member : AgentName} {ids : List TaskId}
  {slot : TaskId → Nat}

variable (h : Ranked tasks team member ids slot)
include h

theorem nodup : ids.Nodup := h.rising.imp (fun hlt heq => absurd (congrArg slot heq) (Nat.ne_of_lt hlt))

theorem mem_iff : id ∈ ids ↔ ∃ row, OpenFor tasks team member id row :=
  ⟨h.open_of_mem, fun ⟨_, hrow⟩ => (h.mem_of_open hrow).1⟩

theorem perm : ((openRows tasks team member).map TaskColumns.taskId).Perm ids := by
  rw [perm_ext_iff_of_nodup (openRows_nodup_ids) h.nodup]
  intro id
  rw [h.mem_iff, List.mem_map]
  constructor
  · rintro ⟨row, hrow, rfl⟩
    exact ⟨row, (mem_openRows.mp hrow).2⟩
  · rintro ⟨row, hrow⟩
    exact ⟨row, hrow.mem⟩

theorem position_eq (hrow : row ∈ openRows tasks team member) : row.position = some (slot row.taskId) :=
  (h.mem_of_open (mem_openRows.mp hrow).2).2

theorem length_eq : (openRows tasks team member).length = ids.length := by
  simpa using h.perm.length_eq

theorem slot_injective {a b : TaskId} (ha : a ∈ ids) (hb : b ∈ ids) (heq : slot a = slot b) : a = b := by
  have hsymm : ids.Pairwise (fun a b => slot a ≠ slot b) := h.rising.imp (fun hlt => Nat.ne_of_lt hlt)
  have : Std.Symm (fun a b : TaskId => slot a ≠ slot b) := ⟨fun _ _ => Ne.symm⟩
  by_contra hne
  exact hsymm.forall ha hb hne heq

/-- The rows sorted as the source sorts them are in the order of the list, also when only some are read. -/
theorem sorted_ids_eq (p : TaskId → Bool) :
    ((((openRows tasks team member).filter (fun row => p row.taskId)).insertionSort
      TaskColumns.queuedBefore).map TaskColumns.taskId) = ids.filter p := by
  set rows := (openRows tasks team member).filter (fun row => p row.taskId) with hrows
  have hperm : (rows.insertionSort TaskColumns.queuedBefore).Perm rows := perm_insertionSort _ _
  have hids : ((rows.insertionSort TaskColumns.queuedBefore).map TaskColumns.taskId).Perm (ids.filter p) := by
    refine (hperm.map _).trans ?_
    have hmap : rows.map TaskColumns.taskId =
        ((openRows tasks team member).map TaskColumns.taskId).filter p := List.filter_map.symm
    rw [hmap]
    exact h.perm.filter p
  have hfirst : ((rows.insertionSort TaskColumns.queuedBefore).map TaskColumns.taskId).Pairwise
      (fun a b => slot a ≤ slot b) := by
    rw [pairwise_map]
    refine (pairwise_insertionSort TaskColumns.queuedBefore rows).imp_of_mem (fun {r s} hr hs hrs => ?_)
    have hr' := h.position_eq (mem_filter.mp (hperm.mem_iff.mp hr)).1
    have hs' := h.position_eq (mem_filter.mp (hperm.mem_iff.mp hs)).1
    unfold TaskColumns.queuedBefore at hrs
    rw [hr', hs'] at hrs
    simp only [Option.getD_some] at hrs
    omega
  have hsecond : (ids.filter p).Pairwise (fun a b => slot a ≤ slot b) := (h.rising.imp Nat.le_of_lt).filter p
  refine List.Perm.eq_of_pairwise ?_ hfirst hsecond hids
  intro a b ha hb hab hba
  exact h.slot_injective (mem_filter.mp (hids.mem_iff.mp ha)).1 (mem_filter.mp hb).1
    (Nat.le_antisymm hab hba)

theorem queueOrder_eq : queueOrder tasks team member = ids := by
  have hsort := h.sorted_ids_eq (fun _ => true)
  rwa [filter_true, filter_true] at hsort

/-- The states the source reads along the queue are those of the listed tasks. -/
theorem queueStates_eq (taskId : TaskId) : (queueStates tasks team member taskId).map some =
      (ids.filter (· ≠ taskId)).map (fun id => (tasks.find? (team, id)).map TaskColumns.state) := by
  rw [← h.sorted_ids_eq (fun id => decide (id ≠ taskId)), queueStates, List.map_map, List.map_map]
  refine map_congr_left (fun row hrow => ?_)
  rw [mem_insertionSort] at hrow
  obtain ⟨-, hopen⟩ := mem_openRows.mp (mem_filter.mp hrow).1
  simp [hopen.1]

end Ranked

theorem Queued.positions (h : Queued tasks team member ids) :
    ((openRows tasks team member).map TaskColumns.position).Perm ((range' 1 ids.length).map some) := by
  have hmap : (openRows tasks team member).map TaskColumns.position =
      ((openRows tasks team member).map TaskColumns.taskId).map (some ∘ place ids) := by
    rw [List.map_map]
    exact map_congr_left (fun row hrow => Ranked.position_eq h hrow)
  have hrange : (range' 1 ids.length).map some = ids.map (some ∘ place ids) := by
    rw [← map_place (Ranked.nodup h), List.map_map]
  rw [hmap, hrange]
  exact (Ranked.perm h).map _

theorem le_maxPosition {p : Nat} (hrow : row ∈ openRows tasks team member) (hp : row.position = some p) :
    p ≤ maxPosition tasks team member :=
  le_max_of_le (mem_filterMap.mpr ⟨row, hrow, hp⟩) le_rfl

/-- The contiguity test of the source passes on a queued member. -/
theorem Queued.maxPosition_eq (h : Queued tasks team member ids) : maxPosition tasks team member = ids.length := by
  refine Nat.le_antisymm (max_le_of_forall_le _ _ ?_) ?_
  · intro p hp
    obtain ⟨row, hrow, hpos⟩ := mem_filterMap.mp hp
    obtain ⟨hmem, hplace⟩ := Ranked.mem_of_open h (mem_openRows.mp hrow).2
    obtain rfl := Option.some.inj (hpos.symm.trans hplace)
    exact place_le_length hmem
  · rcases eq_nil_or_concat ids with rfl | ⟨front, last, hids⟩
    · exact Nat.zero_le _
    · have hlast : last ∈ ids := by simp [hids]
      obtain ⟨row, hrow⟩ := Ranked.open_of_mem h hlast
      have hplace : place ids last = ids.length := by
        have hnd := Ranked.nodup h
        rw [hids, concat_eq_append] at hnd ⊢
        have hfront : last ∉ front := fun hmem =>
          disjoint_of_nodup_append hnd hmem (mem_singleton_self last)
        simp [place, idxOf_append_of_notMem hfront]
      rw [← hplace]
      exact le_maxPosition hrow.mem.1 (Ranked.mem_of_open h hrow).2

end AtmCore
