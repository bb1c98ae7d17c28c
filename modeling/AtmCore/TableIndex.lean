import AtmCore.TableRows

/-! An `UPDATE` of several rows under a unique index. Such a statement writes one row after another and checks the
constraints and the index after each of them, so whether it aborts may depend on the order in which the rows come. If no
old or new index value of one row meets one of another, every order succeeds and gives the same table. -/

namespace Rows

open List

/-- What the store checks of a row it has just written: `check` is the row's own constraint, `index`
the value under a unique index, where `none` stands for a row outside a partial index or with a null
in its columns. -/
structure Guard (ρ ι ε : Type) where
  check : ρ → Option ε
  index : ρ → Option ι
  clash : ε

namespace Table

variable {ρ κ ι ε : Type} {key : ρ → κ}

/-- No two rows share an index value. -/
def UniqueOn (t : Table key) (index : ρ → Option ι) : Prop :=
  ∀ r ∈ t.rows, ∀ s ∈ t.rows, key r ≠ key s → index r = index s → index r = none

variable [DecidableEq κ] {ks done : List κ} {f : ρ → ρ} {r : ρ} {k : κ}

/-- The row function applied to the rows of the listed keys. -/
def mapKeys (t : Table key) (ks : List κ) (f : ρ → ρ) (hf : ∀ r, key (f r) = key r) : Table key :=
  t.mapRows (fun r => if key r ∈ ks then f r else r) (by
    intro r
    split
    · exact hf r
    · rfl)

theorem mapKeys_nil (t : Table key) (f : ρ → ρ) (hf : ∀ r, key (f r) = key r) : t.mapKeys [] f hf = t :=
  t.mapRows_of_forall_eq _ (by simp)

theorem mapKeys_perm (t : Table key) {ls : List κ} (h : ks.Perm ls) (f : ρ → ρ)
    (hf : ∀ r, key (f r) = key r) : t.mapKeys ks f hf = t.mapKeys ls f hf :=
  t.mapRows_congr _ _ (fun r _ => by simp only [h.mem_iff])

theorem mapKeys_snoc (t : Table key) (hk : k ∉ done) (f : ρ → ρ) (hf : ∀ r, key (f r) = key r) :
    (t.mapKeys done f hf).mapKeys [k] f hf = t.mapKeys (done ++ [k]) f hf := by
  unfold mapKeys
  rw [mapRows_mapRows]
  refine t.mapRows_congr _ _ (fun r _ => ?_)
  by_cases hd : key r ∈ done
  · have hne : key r ≠ k := fun h => hk (h ▸ hd)
    simp [hd, hf, hne]
  · simp [hd]

/-- The values of the index that row `r` has before or after an `UPDATE` of the rows in `ks`. -/
def Reaches (key : ρ → κ) (index : ρ → Option ι) (ks : List κ) (f : ρ → ρ) (r : ρ) (i : ι) : Prop :=
  index r = some i ∨ (key r ∈ ks ∧ index (f r) = some i)

/-- No old or new value of one row is an old or new value of another. -/
def Separated (t : Table key) (index : ρ → Option ι) (ks : List κ) (f : ρ → ρ) : Prop :=
  ∀ r ∈ t.rows, ∀ s ∈ t.rows, key r ≠ key s →
    ∀ i, Reaches key index ks f r i → ¬ Reaches key index ks f s i

theorem reaches_mapKeys {index : ρ → Option ι} {i : ι}
    (hsub : ∀ k ∈ done, k ∈ ks) (h : index (if key r ∈ done then f r else r) = some i) :
    Reaches key index ks f r i := by
  split at h
  · next hr => exact .inr ⟨hsub _ hr, h⟩
  · exact .inl h

variable [DecidableEq ι] {g : Guard ρ ι ε} {Q : ρ → Prop} {t t' : Table key}

/-- Some other row has the index value of `r`. -/
def clashes (t : Table key) (index : ρ → Option ι) (r : ρ) : Bool :=
  (index r).isSome && t.rows.any (fun s => decide (key s ≠ key r) && decide (index s = index r))

theorem clashes_eq_false_iff (t : Table key) (index : ρ → Option ι) : t.clashes index r = false ↔
      ∀ s ∈ t.rows, key s ≠ key r → index s = index r → index r = none := by
  unfold clashes
  cases h : index r with
  | none | some => simp

/-- The error a row just written raises, if any. -/
def violation (g : Guard ρ ι ε) (t : Table key) (r : ρ) : Option ε :=
  (g.check r).or (if t.clashes g.index r then some g.clash else none)

theorem violation_eq_none_iff (t : Table key) :
    violation g t r = none ↔ g.check r = none ∧ t.clashes g.index r = false := by
  cases h : g.check r <;> simp [violation, h]

/-- One row of an `UPDATE`: written, then checked. -/
def updateRow (g : Guard ρ ι ε) (f : ρ → ρ) (hf : ∀ r, key (f r) = key r) (t : Table key) (k : κ) :
    Except ε (Table key) :=
  match t.find? k with
  | none => .ok t
  | some r =>
    match violation g (t.mapKeys [k] f hf) (f r) with
    | some e => .error e
    | none => .ok (t.mapKeys [k] f hf)

/-- An `UPDATE` of the rows with the listed keys, in that order. -/
def updateRows (g : Guard ρ ι ε) (f : ρ → ρ) (hf : ∀ r, key (f r) = key r) :
    List κ → Table key → Except ε (Table key)
  | [], t => .ok t
  | k :: ks, t => (updateRow g f hf t k).bind (updateRows g f hf ks)

/-- An insertion under the guard; a taken key raises `taken`. -/
def insertRow (g : Guard ρ ι ε) (taken : ε) (t : Table key) (r : ρ) : Except ε (Table key) :=
  match t.insertNew r with
  | none => .error taken
  | some t' =>
    match violation g t' r with
    | some e => .error e
    | none => .ok t'

theorem mapKeys_keeps (hf : ∀ r, key (f r) = key r)
    (hQ : ∀ r, Q r → Q (f r)) (ht : ∀ r ∈ t.rows, Q r) (ks : List κ) : ∀ r ∈ (t.mapKeys ks f hf).rows, Q r := by
  intro r hr
  rw [mapKeys, mapRows_rows] at hr
  obtain ⟨s, hs, rfl⟩ := List.mem_map.mp hr
  split
  · exact hQ s (ht s hs)
  · exact ht s hs

/-- A property of rows that the row function keeps is kept by the whole statement. -/
theorem updateRows_keeps (hf : ∀ r, key (f r) = key r) (hQ : ∀ r, Q r → Q (f r)) (ht : ∀ r ∈ t.rows, Q r)
    (h : updateRows g f hf ks t = .ok t') : ∀ r ∈ t'.rows, Q r := by
  induction ks generalizing t with
  | nil =>
    cases h
    exact ht
  | cons k ks ih =>
    rw [updateRows] at h
    cases hrow : updateRow g f hf t k with
    | error e =>
      rw [hrow] at h
      cases h
    | ok u =>
      rw [hrow] at h
      refine ih ?_ h
      unfold updateRow at hrow
      split at hrow
      · cases hrow
        exact ht
      · split at hrow
        · cases hrow
        · cases hrow
          exact mapKeys_keeps hf hQ ht [k]

/-- An `UPDATE` that succeeds has changed the listed rows. -/
theorem updateRows_eq_ok (hf : ∀ r, key (f r) = key r)
    (hnd : ks.Nodup) (h : updateRows g f hf ks t = .ok t') : t' = t.mapKeys ks f hf := by
  induction ks generalizing t with
  | nil =>
    obtain rfl := Except.ok.inj h
    exact (t.mapKeys_nil f hf).symm
  | cons k ks ih =>
    obtain ⟨hk, hnd⟩ := nodup_cons.mp hnd
    rw [updateRows] at h
    cases hrow : updateRow g f hf t k with
    | error e =>
      rw [hrow] at h
      cases h
    | ok t₁ =>
    rw [hrow] at h
    have hfirst : t₁ = t.mapKeys [k] f hf := by
      rw [updateRow] at hrow
      split at hrow
      · next hnone =>
        rw [← Except.ok.inj hrow]
        refine (t.mapRows_of_forall_eq _ (fun r hr => if_neg fun hmem => ?_)).symm
        exact (t.find?_eq_none_iff).mp hnone r hr (mem_singleton.mp hmem)
      · split at hrow
        · cases hrow
        · exact (Except.ok.inj hrow).symm
    rw [ih hnd h, hfirst]
    unfold mapKeys
    rw [mapRows_mapRows]
    refine t.mapRows_congr _ _ (fun r _ => ?_)
    by_cases hr : key r = k
    · simp [hr, hf, hk]
    · simp [hr]

theorem insertRow_keeps {taken : ε}
    (ht : ∀ r ∈ t.rows, Q r) (hr : Q r) (h : insertRow g taken t r = .ok t') : ∀ r ∈ t'.rows, Q r := by
  unfold insertRow at h
  split at h
  · cases h
  next u hu =>
  split at h
  · cases h
  cases h
  obtain ⟨-, hrows⟩ := (insertNew_eq_some_iff _ _).mp hu
  intro s hs
  rw [hrows] at hs
  rcases mem_append.mp hs with hs | hs
  · exact ht s hs
  · rw [mem_singleton.mp hs]
    exact hr

section Separated

variable (hf : ∀ r, key (f r) = key r) (hsep : t.Separated g.index ks f)
  (hcheck : ∀ r ∈ t.rows, key r ∈ ks → g.check (f r) = none)
include hsep hcheck

/-- A single row's step of a separated `UPDATE` that has already written the rows in `done`. -/
theorem updateRow_of_separated (hsub : ∀ l ∈ done, l ∈ ks) (hk : k ∈ ks)
    (hfr : k ∉ done) : updateRow g f hf (t.mapKeys done f hf) k = .ok (t.mapKeys (done ++ [k]) f hf) := by
  have hfind : (t.mapKeys done f hf).find? k = t.find? k := by
    rw [mapKeys, find?_mapRows]
    cases h : t.find? k with
    | none => rfl
    | some r => simp [key_of_find? h, hfr]
  unfold updateRow
  rw [hfind]
  cases h : t.find? k with
  | none =>
    have habsent := (t.find?_eq_none_iff).mp h
    refine congrArg Except.ok (t.mapRows_congr _ _ (fun r hr => ?_))
    simp [habsent r hr]
  | some r =>
    have hr := mem_of_find? h
    have hkey := key_of_find? h
    have hok : violation g (t.mapKeys (done ++ [k]) f hf) (f r) = none := by
      rw [violation_eq_none_iff, clashes_eq_false_iff]
      refine ⟨hcheck r hr (hkey ▸ hk), ?_⟩
      intro s hs hne heq
      obtain ⟨u, hu, rfl⟩ := List.mem_map.mp hs
      have hsub' : ∀ l ∈ done ++ [k], l ∈ ks := by
        intro l hl
        rcases mem_append.mp hl with hl | hl
        · exact hsub l hl
        · exact mem_singleton.mp hl ▸ hk
      by_contra hsome
      obtain ⟨i, hi⟩ := Option.ne_none_iff_exists'.mp hsome
      have hkeys : key u ≠ key r := by
        intro hur
        apply hne
        rw [hf r]
        split
        · rw [hf u, hur]
        · exact hur
      exact hsep u hu r hr hkeys i (reaches_mapKeys hsub' (heq.trans hi)) (.inr ⟨hkey ▸ hk, hi⟩)
    simp only [mapKeys_snoc t hfr, hok]

theorem updateRows_of_separated_from {todo : List κ} : ∀ done : List κ, (done ++ todo).Nodup →
    (∀ l ∈ done ++ todo, l ∈ ks) →
      updateRows g f hf todo (t.mapKeys done f hf) = .ok (t.mapKeys (done ++ todo) f hf) := by
  induction todo with
  | nil =>
    intro done _ _
    simp [updateRows]
  | cons k todo ih =>
    intro done hnd hsub
    have hk : k ∉ done := fun h =>
      (disjoint_of_nodup_append hnd) h mem_cons_self
    rw [updateRows, updateRow_of_separated hf hsep hcheck (fun l hl => hsub l (mem_append_left _ hl))
      (hsub k (mem_append_right _ mem_cons_self)) hk]
    have hassoc : done ++ k :: todo = (done ++ [k]) ++ todo := by simp
    rw [hassoc] at hnd hsub ⊢
    exact ih (done ++ [k]) hnd hsub

theorem updateRows_eq_of_separated {order : List κ} (hnd : ks.Nodup) (horder : order.Perm ks) :
    updateRows g f hf order t = .ok (t.mapKeys ks f hf) := by
  have h := updateRows_of_separated_from hf hsep hcheck []
    (by simpa using (horder.nodup_iff).mpr hnd) (by simpa using fun l hl => horder.subset hl)
  rw [mapKeys_nil, nil_append] at h
  rw [h, t.mapKeys_perm horder]

end Separated

/-- An insertion of a fresh key with a free index value succeeds. -/
theorem insertRow_eq_ok (g : Guard ρ ι ε) (taken : ε) (t : Table key) (r : ρ)
    (hfr : t.find? (key r) = none) (hcheck : g.check r = none)
    (hfree : ∀ s ∈ t.rows, g.index s = g.index r → g.index r = none) :
    ∃ t', insertRow g taken t r = .ok t' ∧ t'.rows = t.rows ++ [r] := by
  cases h : t.insertNew r with
  | none =>
    obtain ⟨s, hs⟩ := (t.insertNew_eq_none_iff).mp h
    simp [hfr] at hs
  | some t' =>
    obtain ⟨-, hrows⟩ := (t.insertNew_eq_some_iff t').mp h
    have hok : violation g t' r = none := by
      rw [violation_eq_none_iff, clashes_eq_false_iff, hrows]
      refine ⟨hcheck, ?_⟩
      intro s hs hne heq
      rcases mem_append.mp hs with hs | hs
      · exact hfree s hs heq
      · exact absurd (congrArg key (mem_singleton.mp hs)) hne
    exact ⟨t', by simp [insertRow, h, hok], hrows⟩

/-- Every row passes its own check and no two share an index value: what the guard keeps. -/
structure Sound (g : Guard ρ ι ε) (t : Table key) : Prop where
  check : ∀ r ∈ t.rows, g.check r = none
  unique : t.UniqueOn g.index

theorem updateRow_sound {hf : ∀ r, key (f r) = key r}
    (h : updateRow g f hf t k = .ok t') (hs : t.Sound g) : t'.Sound g := by
  unfold updateRow at h
  split at h
  · exact (Except.ok.inj h) ▸ hs
  · next r hr =>
    split at h
    · contradiction
    next hok =>
    cases h
    obtain ⟨hcheck, hclash⟩ := (violation_eq_none_iff _).mp hok
    rw [clashes_eq_false_iff] at hclash
    have hrow : ∀ s ∈ t.rows, key s ∈ [k] → s = r := fun s hs hk =>
      t.eq_of_key_eq hs (mem_of_find? hr) ((mem_singleton.mp hk).trans (key_of_find? hr).symm)
    have hmem : f r ∈ (t.mapKeys [k] f hf).rows :=
      List.mem_map.mpr ⟨r, mem_of_find? hr, by simp [key_of_find? hr]⟩
    constructor
    · intro s' hs'
      obtain ⟨s, hmem, rfl⟩ := List.mem_map.mp hs'
      split
      · next hk => exact hrow s hmem hk ▸ hcheck
      · exact hs.check s hmem
    · intro u' hu' v' hv' hne heq
      obtain ⟨u, hu, hu_eq⟩ := List.mem_map.mp hu'
      obtain ⟨v, hv, hv_eq⟩ := List.mem_map.mp hv'
      by_cases hvk : key v ∈ [k]
      · obtain rfl := hrow v hv hvk
        rw [if_pos hvk] at hv_eq
        subst hv_eq
        exact heq.trans (hclash u' hu' hne heq)
      · rw [if_neg hvk] at hv_eq
        subst hv_eq
        by_cases huk : key u ∈ [k]
        · obtain rfl := hrow u hu huk
          rw [if_pos huk] at hu_eq
          subst hu_eq
          exact hclash v hv' hne.symm heq.symm
        · rw [if_neg huk] at hu_eq
          subst hu_eq
          exact hs.unique u hu v hv hne heq

theorem updateRows_sound {hf : ∀ r, key (f r) = key r} :
    ∀ {t t' : Table key}, updateRows g f hf ks t = .ok t' → t.Sound g → t'.Sound g := by
  induction ks with
  | nil =>
    intro t t' h hs
    exact (Except.ok.inj h) ▸ hs
  | cons k ks ih =>
    intro t t' h hs
    rw [updateRows] at h
    cases hrow : updateRow g f hf t k with
    | error e => rw [hrow] at h; contradiction
    | ok t₁ =>
      rw [hrow] at h
      exact ih h (updateRow_sound hrow hs)

theorem insertRow_sound {taken : ε} (h : insertRow g taken t r = .ok t') (hs : t.Sound g) : t'.Sound g := by
  unfold insertRow at h
  split at h
  · contradiction
  next t₁ hnew =>
  obtain ⟨-, hrows⟩ := (t.insertNew_eq_some_iff t₁).mp hnew
  split at h
  · contradiction
  next hok =>
  obtain rfl := Except.ok.inj h
  obtain ⟨hcheck, hclash⟩ := (violation_eq_none_iff _).mp hok
  rw [clashes_eq_false_iff] at hclash
  have hmem : ∀ s, s ∈ t₁.rows ↔ s ∈ t.rows ∨ s = r := by simp [hrows]
  constructor
  · intro s hsr
    rcases (hmem s).mp hsr with hsr | rfl
    · exact hs.check s hsr
    · exact hcheck
  · intro u hu v hv hne heq
    rcases (hmem v).mp hv with hv' | rfl
    · rcases (hmem u).mp hu with hu' | rfl
      · exact hs.unique u hu' v hv' hne heq
      · exact hclash v hv hne.symm heq.symm
    · exact heq.trans (hclash u hu hne heq)

end Table

end Rows
