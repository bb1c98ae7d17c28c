import Mathlib.Data.List.Nodup
import Mathlib.Data.List.Perm.Basic
import Mathlib.Data.List.Sort

/-! Tables of rows under a primary key, as a relational store keeps them: the rows stand in insertion order, and a
table with a repeated key cannot be written down. A table that only grows is changed in place and appended to; what
may happen to a row is a relation, and over a run it is the relation itself when it composes. -/

namespace Rows

open List Option

/-- Rows in insertion order, no two with the same primary key. -/
structure Table {ρ κ : Type} (key : ρ → κ) where
  rows : List ρ
  nodup : (rows.map key).Nodup

namespace Table

variable {ρ κ : Type} {key : ρ → κ} {t : Table key} {r : ρ} {f : ρ → ρ} {p : ρ → Bool}

@[ext] theorem ext {s : Table key} (h : t.rows = s.rows) : t = s := by
  cases t; cases s; cases h; rfl

def empty : Table key := ⟨[], nodup_nil⟩

theorem eq_of_key_eq (t : Table key) {s : ρ} (hr : r ∈ t.rows) (hs : s ∈ t.rows) (h : key r = key s) : r = s :=
  inj_on_of_nodup_map t.nodup hr hs h

/-- A statement that rewrites rows and leaves their keys alone. -/
def mapRows (t : Table key) (f : ρ → ρ) (hf : ∀ r, key (f r) = key r) : Table key where
  rows := t.rows.map f
  nodup := by
    have h : key ∘ f = key := funext hf
    simpa [List.map_map, h] using t.nodup

section

variable (t : Table key)

@[simp] theorem mapRows_rows (f : ρ → ρ) (hf : ∀ r, key (f r) = key r) :
    (t.mapRows f hf).rows = t.rows.map f := rfl

theorem mapRows_keys (f : ρ → ρ) (hf : ∀ r, key (f r) = key r) :
    (t.mapRows f hf).rows.map key = t.rows.map key := by
  rw [mapRows_rows, List.map_map]
  exact map_congr_left (fun r _ => hf r)

theorem mapRows_mapRows (f g : ρ → ρ) (hf : ∀ r, key (f r) = key r) (hg : ∀ r, key (g r) = key r) :
    (t.mapRows f hf).mapRows g hg = t.mapRows (g ∘ f) (fun r => (hg _).trans (hf r)) := by
  ext1
  simp [List.map_map]

theorem mapRows_congr {g : ρ → ρ} (hf : ∀ r, key (f r) = key r)
    (hg : ∀ r, key (g r) = key r) (h : ∀ r ∈ t.rows, f r = g r) : t.mapRows f hf = t.mapRows g hg := by
  ext1
  exact map_congr_left h

theorem mapRows_of_forall_eq (hf : ∀ r, key (f r) = key r)
    (h : ∀ r ∈ t.rows, f r = r) : t.mapRows f hf = t := by
  ext1
  exact (map_congr_left h).trans (List.map_id' _)

end

def filterRows (t : Table key) (p : ρ → Bool) : Table key where
  rows := t.rows.filter p
  nodup := t.nodup.sublist (filter_sublist.map key)

@[simp] theorem filterRows_rows (t : Table key) (p : ρ → Bool) : (t.filterRows p).rows = t.rows.filter p := rfl

/-- A deletion that does not look at what a statement rewrites can come before it. -/
theorem filterRows_mapRows (t : Table key) (hf : ∀ r, key (f r) = key r)
    (hp : ∀ r, p (f r) = p r) : (t.mapRows f hf).filterRows p = (t.filterRows p).mapRows f hf := by
  ext1
  rw [filterRows_rows, mapRows_rows, mapRows_rows, filterRows_rows, List.filter_map]
  congr 2
  exact funext hp

/-- Rows that a statement does not rewrite, and that do not turn into others of their kind, are left. -/
theorem filter_mapRows (t : Table key) {q : ρ → Bool} (hf : ∀ r, key (f r) = key r)
    (hq : ∀ r, q (f r) = q r) (hkept : ∀ r ∈ t.rows, q r = true → f r = r) :
    (t.mapRows f hf).rows.filter q = t.rows.filter q := by
  have hcomp : q ∘ f = q := funext hq
  rw [mapRows_rows, List.filter_map, hcomp]
  refine (map_congr_left (fun r hr => ?_)).trans (List.map_id _)
  obtain ⟨hmem, hkind⟩ := mem_filter.mp hr
  exact hkept r hmem hkind

section Lookup

variable [DecidableEq κ] {k : κ} {merge : ρ → ρ}

/-- The row of a key. -/
def find? (t : Table key) (k : κ) : Option ρ := t.rows.find? (fun r => decide (key r = k))

theorem find?_eq_some_iff (t : Table key) : t.find? k = some r ↔ r ∈ t.rows ∧ key r = k := by
  constructor
  · intro h
    exact ⟨mem_of_find?_eq_some h, by simpa using find?_some h⟩
  · rintro ⟨hr, rfl⟩
    cases hfind : t.find? (key r) with
    | none =>
      have hne := find?_eq_none.mp hfind r hr
      simp at hne
    | some s =>
      have hs := mem_of_find?_eq_some hfind
      have hk : key s = key r := by simpa using find?_some hfind
      rw [t.eq_of_key_eq hs hr hk]

theorem find?_eq_none_iff (t : Table key) : t.find? k = none ↔ ∀ r ∈ t.rows, key r ≠ k := by
  simp [find?, find?_eq_none]

theorem mem_of_find? (h : t.find? k = some r) : r ∈ t.rows := ((t.find?_eq_some_iff).mp h).1

theorem key_of_find? (h : t.find? k = some r) : key r = k := ((t.find?_eq_some_iff).mp h).2

theorem find?_key (h : r ∈ t.rows) : t.find? (key r) = some r := (t.find?_eq_some_iff).mpr ⟨h, rfl⟩

theorem find?_mapRows (t : Table key) (f : ρ → ρ) (hf : ∀ r, key (f r) = key r) (k : κ) :
    (t.mapRows f hf).find? k = (t.find? k).map f := by
  simp only [find?, mapRows_rows, find?_map]
  congr 2
  funext r
  simp [Function.comp, hf]

theorem find?_filterRows (t : Table key) (p : ρ → Bool) : (t.filterRows p).find? k = (t.find? k).filter p := by
  cases h : t.find? k with
  | none =>
    rw [filter_none, find?_eq_none_iff]
    intro r hr
    exact (find?_eq_none_iff t).mp h r (mem_of_mem_filter hr)
  | some r =>
    have hr := (t.find?_eq_some_iff).mp h
    cases hp : p r with
    | true =>
      rw [filter_some_pos hp, find?_eq_some_iff]
      exact ⟨mem_filter.mpr ⟨hr.1, hp⟩, hr.2⟩
    | false =>
      rw [filter_some_neg (by simp [hp]), find?_eq_none_iff]
      intro s hs hks
      have hsr := t.eq_of_key_eq (mem_of_mem_filter hs) hr.1 (hks.trans hr.2.symm)
      simp [hsr, hp] at hs

/-- The rows of a key that is present are one row. -/
theorem filter_key (h : t.find? k = some r) : t.rows.filter (fun s => decide (key s = k)) = [r] := by
  have hall : ∀ s ∈ t.rows.filter (fun s => decide (key s = k)), s = r := by
    intro s hs
    obtain ⟨hmem, hkey⟩ := mem_filter.mp hs
    exact t.eq_of_key_eq hmem (mem_of_find? h) ((of_decide_eq_true hkey).trans (key_of_find? h).symm)
  have hmem : r ∈ t.rows.filter (fun s => decide (key s = k)) :=
    mem_filter.mpr ⟨mem_of_find? h, decide_eq_true (key_of_find? h)⟩
  have hnd : (t.rows.filter (fun s => decide (key s = k))).Nodup := t.nodup.of_map.filter _
  rw [eq_replicate_of_mem hall, nodup_replicate] at hnd
  have hpos := length_pos_of_mem hmem
  rw [eq_replicate_of_mem hall, show (t.rows.filter (fun s => decide (key s = k))).length = 1 by omega]
  rfl

/-- A filter that lets the rows of a key pass does not matter there. -/
theorem find?_filterRows_of_key (t : Table key) (h : ∀ r, key r = k → p r = true) :
    (t.filterRows p).find? k = t.find? k := by
  rw [find?_filterRows]
  cases hrow : t.find? k with
  | none => rfl
  | some r => rw [filter_some, if_pos (h r (key_of_find? hrow))]

/-- An insertion: refused when the key is taken. -/
def insertNew (t : Table key) (r : ρ) : Option (Table key) :=
  if h : t.find? (key r) = none then
    some {
      rows := t.rows ++ [r]
      nodup := by
        rw [map_append, nodup_append]
        refine ⟨t.nodup, by simp, ?_⟩
        intro a ha b hb
        obtain ⟨s, hs, rfl⟩ := List.mem_map.mp ha
        simp only [map_cons, map_nil, mem_singleton] at hb
        rw [hb]
        exact (find?_eq_none_iff t).mp h s hs }
  else none

theorem insertNew_eq_none_iff (t : Table key) : t.insertNew r = none ↔ ∃ s, t.find? (key r) = some s := by
  unfold insertNew
  split
  · next h => simp [h]
  · next h => simpa using ne_none_iff_exists'.mp h

theorem insertNew_eq_some_iff (t t' : Table key) :
    t.insertNew r = some t' ↔ t.find? (key r) = none ∧ t'.rows = t.rows ++ [r] := by
  unfold insertNew
  split
  · next h =>
    constructor
    · intro heq
      cases heq
      exact ⟨h, rfl⟩
    · rintro ⟨-, hrows⟩
      congr 1
      ext1
      exact hrows.symm
  · next h => simp [h]

theorem find?_of_rows_append {t' : Table key} (h : t'.rows = t.rows ++ [r]) (k : κ) :
    t'.find? k = if key r = k then some r else t.find? k := by
  split
  · next hk =>
    rw [find?_eq_some_iff]
    exact ⟨by simp [h], hk⟩
  · next hk =>
    simp only [find?, h, find?_append, find?_cons, hk, decide_false, find?_nil, or_none]

/-- An insertion that rewrites the row already there when the key is taken. -/
def upsert (t : Table key) (r : ρ) (merge : ρ → ρ) (hm : ∀ s, key (merge s) = key s) : Table key :=
  (t.insertNew r).getD (t.mapRows (fun s => if key s = key r then merge s else s) (by
    intro s
    split
    · exact hm s
    · rfl))

theorem find?_upsert (t : Table key) (merge : ρ → ρ) (hm : ∀ s, key (merge s) = key s) :
    (t.upsert r merge hm).find? k = if key r = k then some ((t.find? k).elim r merge) else t.find? k := by
  unfold upsert
  cases h : t.insertNew r with
  | none =>
    obtain ⟨s, hs⟩ := (t.insertNew_eq_none_iff).mp h
    rw [getD_none, find?_mapRows]
    split
    · next hk =>
      subst hk
      simp [hs, key_of_find? hs]
    · next hk =>
      cases hf : t.find? k with
      | none => rfl
      | some u =>
        have hu : key u ≠ key r := fun heq => hk (heq.symm.trans (key_of_find? hf))
        simp [hu]
  | some t' =>
    obtain ⟨hnone, hrows⟩ := (t.insertNew_eq_some_iff t').mp h
    rw [getD_some, find?_of_rows_append hrows]
    split
    · next hk =>
      subst hk
      rw [hnone]
      rfl
    · rfl

/-- A deletion that keeps the key of an upsert can come before it. -/
theorem filterRows_upsert (t : Table key) (hm : ∀ s, key (merge s) = key s)
    (hp : ∀ s s', key s = key s' → p s = p s') (hr : p r = true) :
    (t.upsert r merge hm).filterRows p = (t.filterRows p).upsert r merge hm := by
  have hlookup : (t.filterRows p).find? (key r) = t.find? (key r) :=
    find?_filterRows_of_key t (fun s hs => (hp s r hs).trans hr)
  unfold upsert
  cases h : t.insertNew r with
  | none =>
    have hsome := (insertNew_eq_none_iff t).mp h
    rw [← hlookup] at hsome
    rw [(insertNew_eq_none_iff _).mpr hsome, getD_none, getD_none, filterRows_mapRows]
    intro s
    refine hp _ _ ?_
    split
    · exact hm s
    · rfl
  | some t' =>
    obtain ⟨hnone, hrows⟩ := (insertNew_eq_some_iff t t').mp h
    have hins : (t.filterRows p).insertNew r = some (t'.filterRows p) := by
      rw [insertNew_eq_some_iff, hlookup, filterRows_rows, hrows, filter_append]
      exact ⟨hnone, by rw [filterRows_rows, filter_cons_of_pos hr, filter_nil]⟩
    rw [hins, getD_some, getD_some]

theorem filter_upsert (t : Table key) {q : ρ → Bool} (hm : ∀ s, key (merge s) = key s)
    (hq : ∀ s s', key s = key s' → q s = q s') (hr : q r = false) :
    (t.upsert r merge hm).rows.filter q = t.rows.filter q := by
  unfold upsert
  cases h : t.insertNew r with
  | none =>
    have hf : ∀ s, key (if key s = key r then merge s else s) = key s := by
      intro s
      split
      · exact hm s
      · rfl
    refine filter_mapRows t hf (fun s => hq _ _ (hf s)) (fun s _ hs => if_neg (fun heq => ?_))
    rw [hq s r heq, hr] at hs
    cases hs
  | some t' =>
    obtain ⟨-, hrows⟩ := (insertNew_eq_some_iff t t').mp h
    rw [getD_some, hrows, filter_append, filter_cons_of_neg (by simp [hr]), filter_nil,
      append_nil]

end Lookup

end Table

variable {xs : List Nat}

theorem foldr_max_init {m : Nat} : xs.foldr max m = max (xs.foldr max 0) m := by
  induction xs with
  | nil => simp
  | cons x xs ih => rw [foldr_cons, foldr_cons, ih, max_assoc]

theorem le_foldr_max {x : Nat} (h : x ∈ xs) : x ≤ xs.foldr max 0 := by
  induction xs with
  | nil => cases h
  | cons y ys ih =>
    rw [foldr_cons]
    rcases mem_cons.mp h with rfl | h
    · exact le_max_left _ _
    · exact (ih h).trans (le_max_right _ _)

/-- Numbers that were given out one after another from 1 have their count as the greatest. -/
theorem foldr_max_range' {k : Nat} : (range' 1 k).foldr max 0 = k := by
  induction k with
  | zero => rfl
  | succ k ih =>
    rw [range'_concat, foldr_append, foldr_max_init, ih, foldr_cons, foldr_nil]
    omega

section Search

variable {α : Type} {p q : α → Bool}

/-- A search finds in a part of a list what it finds in the list, when the part keeps all it looks for. -/
theorem find?_filter_of_imp {xs : List α} (h : ∀ x ∈ xs, q x = true → p x = true) :
    (xs.filter p).find? q = xs.find? q := by
  induction xs with
  | nil => rfl
  | cons x xs ih =>
    have hrest := ih (fun y hy => h y (mem_cons_of_mem x hy))
    by_cases hq : q x = true
    · rw [filter_cons_of_pos (h x mem_cons_self hq), find?_cons_of_pos hq,
        find?_cons_of_pos hq]
    · rw [find?_cons_of_neg hq, ← hrest]
      by_cases hp : p x = true
      · rw [filter_cons_of_pos hp, find?_cons_of_neg hq]
      · rw [filter_cons_of_neg hp]

theorem any_filter_of_imp {xs : List α} (h : ∀ x ∈ xs, q x = true → p x = true) : (xs.filter p).any q = xs.any q := by
  rw [Bool.eq_iff_iff, List.any_eq_true, List.any_eq_true, ← find?_isSome, ← find?_isSome,
    find?_filter_of_imp h]

end Search

section Growth

variable {α : Type} {R : α → α → Prop}

/-- The rows of the first list, each changed as `R` lets it, and then new ones. -/
inductive Grown (R : α → α → Prop) : List α → List α → Prop where
  | nil (added : List α) : Grown R [] added
  | cons {x y : α} {xs ys : List α} (hrow : R x y) (hrest : Grown R xs ys) : Grown R (x :: xs) (y :: ys)

namespace Grown

theorem append (h : ∀ x, R x x) (xs added : List α) : Grown R xs (xs ++ added) := by
  induction xs with
  | nil => exact .nil added
  | cons x xs ih => exact .cons (h x) ih

theorem refl (h : ∀ x, R x x) (xs : List α) : Grown R xs xs := by
  have happend := append h xs []
  rwa [append_nil] at happend

theorem map {f : α → α} (h : ∀ x, R x (f x)) (xs : List α) : Grown R xs (xs.map f) := by
  induction xs with
  | nil => exact .nil []
  | cons x xs ih => exact .cons (h x) ih

theorem of_map {ρ : Type} {f g : ρ → α} {rows : List ρ} (h : ∀ r ∈ rows, R (f r) (g r)) :
    Grown R (rows.map f) (rows.map g) := by
  induction rows with
  | nil => exact .nil []
  | cons r rows ih => exact .cons (h r mem_cons_self) (ih (fun s hs => h s (mem_cons_of_mem r hs)))

theorem trans (htra : ∀ x y z, R x y → R y z → R x z) {xs ys zs : List α} (h : Grown R xs ys) (h' : Grown R ys zs) :
    Grown R xs zs := by
  induction h generalizing zs with
  | nil added => exact .nil zs
  | cons hrow hrest ih =>
    cases h' with
    | cons hrow' hrest' => exact .cons (htra _ _ _ hrow hrow') (ih hrest')

theorem exists_of_mem {xs ys : List α} (h : Grown R xs ys) {x : α} (hx : x ∈ xs) : ∃ y ∈ ys, R x y := by
  induction h with
  | nil added => cases hx
  | @cons a b as bs hrow hrest ih =>
    rcases mem_cons.mp hx with rfl | hx
    · exact ⟨b, mem_cons_self, hrow⟩
    · obtain ⟨y, hy, hxy⟩ := ih hx
      exact ⟨y, mem_cons_of_mem b hy, hxy⟩

end Grown

end Growth

end Rows
