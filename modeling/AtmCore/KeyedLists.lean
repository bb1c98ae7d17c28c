import Mathlib.Data.List.Perm.Basic
import Mathlib.Data.List.Sort
import Mathlib.Data.List.TakeWhile

/-! Lists whose entries are told apart by a key: the entries of a sorted list that share their key with a neighbour,
and the search of an entry that only one can answer, which no order of the list changes. A query that sorts its rows
and keeps the first `n` returns a row just in case fewer than `n` rows of the table stand before it. -/

namespace KeyedLists

open List

variable {α κ : Type} {list : List α}

section Repeated

variable [DecidableEq κ] (key : α → κ)

/-- The runs of more than one entry of one key, in a list that is sorted by the key. -/
def repeatedRuns : List α → List α
  | [] => []
  | first :: rest =>
    let run := rest.takeWhile (fun entry => decide (key entry = key first))
    (if run.isEmpty then [] else first :: run) ++
      repeatedRuns (rest.dropWhile (fun entry => decide (key entry = key first)))
termination_by list => list.length
decreasing_by exact Nat.lt_succ_of_le (length_dropWhile_le _ _)

variable {key}

/-- In a list that is sorted by the key, the entries of the least key stand in front. -/
theorem mem_takeWhile_key [LinearOrder κ] {k : κ} {entry : α}
    (hsort : list.Pairwise (fun a b => key a ≤ key b)) (hleast : ∀ a ∈ list, k ≤ key a) (hentry : entry ∈ list)
    (hkey : key entry = k) : entry ∈ list.takeWhile (fun a => decide (key a = k)) := by
  induction list with
  | nil => exact hentry
  | cons first rest ih =>
    obtain ⟨hfirst, hrest⟩ := pairwise_cons.mp hsort
    have hle : key first ≤ key entry := by
      rcases mem_cons.mp hentry with rfl | hmem
      · exact le_refl _
      · exact hfirst entry hmem
    have heq : key first = k := le_antisymm (hkey ▸ hle) (hleast first mem_cons_self)
    rw [takeWhile_cons, if_pos (decide_eq_true heq)]
    rcases mem_cons.mp hentry with rfl | hmem
    · exact mem_cons_self
    · exact mem_cons_of_mem _ (ih hrest (fun a ha => hleast a (mem_cons_of_mem _ ha)) hmem)

/-- Two entries of one key are both among the repeated ones. -/
theorem mem_repeatedRuns [LinearOrder κ] {a b : α} (hsort : list.Pairwise (fun a b => key a ≤ key b))
    (ha : a ∈ list) (hb : b ∈ list) (hne : a ≠ b) (hkey : key a = key b) : a ∈ repeatedRuns key list := by
  induction list using repeatedRuns.induct key with
  | case1 => cases ha
  | case2 first rest ih =>
    obtain ⟨hfirst, hrest⟩ := pairwise_cons.mp hsort
    have hrun : ∀ entry ∈ rest, key entry = key first →
        entry ∈ rest.takeWhile (fun entry => decide (key entry = key first)) :=
      fun entry hentry heq => mem_takeWhile_key hrest hfirst hentry heq
    have hafter : ∀ entry ∈ rest, key entry ≠ key first →
        entry ∈ rest.dropWhile (fun entry => decide (key entry = key first)) := by
      intro entry hentry heq
      rw [← @List.takeWhile_append_dropWhile _ (fun entry => decide (key entry = key first)) rest] at hentry
      rcases mem_append.mp hentry with hmem | hmem
      · have hkept := mem_takeWhile_imp hmem
        exact absurd (of_decide_eq_true hkept) heq
      · exact hmem
    rw [repeatedRuns]
    by_cases hsame : key a = key first
    · -- one of the two is not the first of its run, so the run is not empty
      refine mem_append_left _ ?_
      rcases mem_cons.mp ha with rfl | hmem
      · have hother := hrun b ((mem_cons.mp hb).resolve_left (Ne.symm hne)) hkey.symm
        rw [if_neg (by simp [ne_nil_of_mem hother])]
        exact mem_cons_self
      · have hself := hrun a hmem hsame
        rw [if_neg (by simp [ne_nil_of_mem hself])]
        exact mem_cons_of_mem _ hself
    · have htail : ∀ entry ∈ first :: rest, key entry = key a → entry ∈ rest := by
        intro entry hentry heq
        refine (mem_cons.mp hentry).resolve_left (fun hfirst => hsame ?_)
        rw [← heq, hfirst]
      exact mem_append_right _ (ih (hrest.sublist (dropWhile_sublist _))
        (hafter a (htail a ha rfl) hsame) (hafter b (htail b hb hkey.symm) (hkey ▸ hsame)))

end Repeated

theorem find?_of_perm {p : α → Bool} {list' : List α} (hperm : list.Perm list')
    (huniq : ∀ a ∈ list, ∀ b ∈ list, p a = true → p b = true → a = b) : list.find? p = list'.find? p := by
  cases hf : list'.find? p with
  | none =>
    rw [find?_eq_none] at hf ⊢
    exact fun a ha => hf a (hperm.mem_iff.mp ha)
  | some a =>
    have ha := hperm.mem_iff.mpr (mem_of_find?_eq_some hf)
    have hp := find?_some hf
    cases hother : list.find? p with
    | none => exact absurd hp (find?_eq_none.mp hother a ha)
    | some b =>
      exact congrArg some (huniq b (mem_of_find?_eq_some hother) a ha (find?_some hother) hp)

end KeyedLists

namespace SortLimit

open List

variable {α : Type} {le : α → α → Bool} {xs : List α} {x : α} {before after : List α}

/-- How many elements stand strictly before `x`. -/
def ahead (le : α → α → Bool) (x : α) (xs : List α) : Nat := (xs.filter (fun y => !le x y)).length

theorem ahead_perm {ys : List α} (h : xs.Perm ys) : ahead le x xs = ahead le x ys := (h.filter _).length_eq

/-- In a sorted list the elements ahead of `x` are those before its first occurrence. -/
theorem ahead_of_sorted (hself : le x x = true)
    (hsort : (before ++ x :: after).Pairwise (fun a b => le a b = true)) (hfirst : x ∉ before)
    (hanti : ∀ y ∈ before, le y x = true → le x y = true → y = x) :
    ahead le x (before ++ x :: after) = before.length := by
  obtain ⟨-, hafter, hcross⟩ := pairwise_append.mp hsort
  have hbefore : before.filter (fun y => !le x y) = before := by
    rw [filter_eq_self]
    intro y hy
    have hle : le y x = true := hcross y hy x mem_cons_self
    cases hback : le x y with
    | false => rfl
    | true => exact absurd (hanti y hy hle hback ▸ hy) hfirst
  have hrest : (x :: after).filter (fun y => !le x y) = [] := by
    rw [filter_eq_nil_iff]
    intro y hy
    rcases mem_cons.mp hy with rfl | hy
    · simp [hself]
    · simp [(pairwise_cons.mp hafter).1 y hy]
  rw [ahead, filter_append, hbefore, hrest, append_nil]

theorem mem_take_iff_of_first (hfirst : x ∉ before) {n : Nat} :
    x ∈ (before ++ x :: after).take n ↔ before.length < n := by
  by_cases hn : before.length < n
  · refine iff_of_true ?_ hn
    rw [take_append, mem_append]
    right
    obtain ⟨k, hk⟩ : ∃ k, n - before.length = k + 1 := ⟨n - before.length - 1, by omega⟩
    rw [hk, take_succ_cons]
    exact mem_cons_self
  · refine iff_of_false (fun hx => ?_) hn
    rw [take_append_of_le_length (by omega)] at hx
    exact hfirst (mem_of_mem_take hx)

theorem mem_take_mergeSort_iff (htra : ∀ a b c, le a b = true → le b c = true → le a c = true)
    (htotal : ∀ a b, (le a b || le b a) = true) (hx : x ∈ xs)
    (hanti : ∀ y ∈ xs, le y x = true → le x y = true → y = x) (n : Nat) :
    x ∈ (xs.mergeSort le).take n ↔ ahead le x xs < n := by
  have hperm : (xs.mergeSort le).Perm xs := mergeSort_perm xs le
  have hsort := pairwise_mergeSort htra htotal xs
  obtain ⟨before, after, hsplit, hfirst⟩ := eq_append_cons_of_mem (hperm.mem_iff.mpr hx)
  rw [hsplit] at hperm hsort
  have hahead : ahead le x (before ++ x :: after) = before.length := by
    refine ahead_of_sorted (by simpa using htotal x x) hsort hfirst (fun y hy => hanti y ?_)
    exact hperm.mem_iff.mp (mem_append_left _ hy)
  rw [hsplit, mem_take_iff_of_first hfirst, ← ahead_perm hperm, hahead]

/-- What stands before all the rest is sorted apart from it. -/
theorem mergeSort_append {ys : List α} (htra : ∀ a b c, le a b = true → le b c = true → le a c = true)
    (htotal : ∀ a b, (le a b || le b a) = true)
    (hanti : ∀ a ∈ xs ++ ys, ∀ b ∈ xs ++ ys, le a b = true → le b a = true → a = b)
    (hcut : ∀ x ∈ xs, ∀ y ∈ ys, le x y = true) : (xs ++ ys).mergeSort le = xs.mergeSort le ++ ys.mergeSort le := by
  have hperm : (xs.mergeSort le ++ ys.mergeSort le).Perm (xs ++ ys) :=
    (mergeSort_perm xs le).append (mergeSort_perm ys le)
  refine ((mergeSort_perm _ le).trans hperm.symm).eq_of_pairwise (fun a b ha hb => ?_)
    (pairwise_mergeSort htra htotal _) (pairwise_append.mpr
      ⟨pairwise_mergeSort htra htotal _, pairwise_mergeSort htra htotal _, fun x hx y hy => ?_⟩)
  · exact hanti a (mem_mergeSort.mp ha) b (hperm.mem_iff.mp hb)
  · exact hcut x (mem_mergeSort.mp hx) y (mem_mergeSort.mp hy)

/-- A limit may come before the sorting if no element behind it belongs before one in front of it. -/
theorem take_mergeSort (htra : ∀ a b c, le a b = true → le b c = true → le a c = true)
    (htotal : ∀ a b, (le a b || le b a) = true)
    (hanti : ∀ a ∈ xs, ∀ b ∈ xs, le a b = true → le b a = true → a = b) {n : Nat}
    (hcut : ∀ x ∈ xs.take n, ∀ y ∈ xs.drop n, le x y = true) :
    (xs.mergeSort le).take n = (xs.take n).mergeSort le := by
  by_cases hn : n ≤ xs.length
  · have hlength : ((xs.take n).mergeSort le).length = n := by
      rw [length_mergeSort, length_take, Nat.min_eq_left hn]
    have hsplit := mergeSort_append htra htotal (by rw [take_append_drop]; exact hanti) hcut
    rw [take_append_drop] at hsplit
    rw [hsplit, take_left' hlength]
  · rw [take_of_length_le (by omega : xs.length ≤ n),
      take_of_length_le (by rw [length_mergeSort]; omega)]

theorem head?_mergeSort (htra : ∀ a b c, le a b = true → le b c = true → le a c = true)
    (htotal : ∀ a b, (le a b || le b a) = true) (h : (xs.mergeSort le).head? = some x) :
    x ∈ xs ∧ ∀ y ∈ xs, le x y = true := by
  have hperm : (xs.mergeSort le).Perm xs := mergeSort_perm xs le
  have hsort := pairwise_mergeSort htra htotal xs
  obtain ⟨rest, hsplit⟩ := head?_eq_some_iff.mp h
  rw [hsplit] at hperm hsort
  refine ⟨hperm.mem_iff.mp mem_cons_self, fun y hy => ?_⟩
  rcases mem_cons.mp (hperm.mem_iff.mpr hy) with rfl | hrest
  · simpa using htotal y y
  · exact (pairwise_cons.mp hsort).1 y hrest

end SortLimit
