import Mathlib.Data.List.Basic

/-! Running a queue of operations in groups. A single operation runs under its own savepoint. A run of neighbouring
operations may instead be tried under one shared savepoint; if one of them fails, the state is rolled back and the whole
run is replayed one by one. When a successful `exec` is what `single` does, no one can tell the two apart. -/

namespace Batching

open List

variable {Op St Res Reply Err : Type}

/-- One after another, each under its own savepoint. -/
def runSingly (single : Op → St → Reply × St) : List Op → St → List Reply × St
  | [], s => ([], s)
  | op :: ops, s =>
    let (reply, s) := single op s
    let (replies, s) := runSingly single ops s
    (reply :: replies, s)

/-- All under one savepoint; nothing when one of them fails. -/
def tryAll (exec : Op → St → Except Err (Res × St)) : List Op → St → Option (List Res × St)
  | [], s => some ([], s)
  | op :: ops, s =>
    match exec op s with
    | .error _ => none
    | .ok (res, s) => (tryAll exec ops s).map (fun (rest, s) => (res :: rest, s))

/-- A run: alone, or tried together and replayed on failure. -/
def runGroup (exec : Op → St → Except Err (Res × St)) (single : Op → St → Reply × St)
    (wrap : Res → Reply) (ops : List Op) (s : St) : List Reply × St :=
  match ops with
  | [op] => runSingly single [op] s
  | ops =>
    match tryAll exec ops s with
    | some (results, s) => (results.map wrap, s)
    | none => runSingly single ops s

/-- The queue, cut into maximal runs of operations that may share a savepoint; `pending` is the run that
is being collected. -/
def runGrouped (shares : Op → Bool) (exec : Op → St → Except Err (Res × St))
    (single : Op → St → Reply × St) (wrap : Res → Reply) : List Op → List Op → St → List Reply × St
  | pending, [], s => runGroup exec single wrap pending s
  | pending, op :: ops, s =>
    if shares op then runGrouped shares exec single wrap (pending ++ [op]) ops s
    else
      let (before, s) := runGroup exec single wrap pending s
      let (reply, s) := single op s
      let (after, s) := runGrouped shares exec single wrap [] ops s
      (before ++ reply :: after, s)

section Correctness

variable {exec : Op → St → Except Err (Res × St)} {single : Op → St → Reply × St} {wrap : Res → Reply}
  {ops : List Op} {s : St}

theorem runSingly_keeps {P : St → Prop} (hop : ∀ op ∈ ops, ∀ s, P s → P (single op s).2)
    (h : P s) : P (runSingly single ops s).2 := by
  induction ops generalizing s with
  | nil => exact h
  | cons op ops ih =>
    exact ih (fun later hlater => hop later (mem_cons_of_mem op hlater)) (hop op mem_cons_self s h)

theorem runSingly_append {later : List Op} : runSingly single (ops ++ later) s =
      ((runSingly single ops s).1 ++ (runSingly single later (runSingly single ops s).2).1,
        (runSingly single later (runSingly single ops s).2).2) := by
  induction ops generalizing s with
  | nil => rfl
  | cons op ops ih =>
    simp only [cons_append, runSingly, ih]

section

variable (hexec : ∀ op s res s', exec op s = .ok (res, s') → single op s = (wrap res, s'))
include hexec

theorem runSingly_of_tryAll (ops : List Op) (s : St) {results : List Res} {s' : St}
    (h : tryAll exec ops s = some (results, s')) : runSingly single ops s = (results.map wrap, s') := by
  induction ops generalizing s results s' with
  | nil =>
    cases h
    rfl
  | cons op ops ih =>
    rw [tryAll] at h
    cases hop : exec op s with
    | error e => simp [hop] at h
    | ok res =>
      obtain ⟨res, mid⟩ := res
      simp only [hop] at h
      obtain ⟨⟨rest, last⟩, hrest, hcons⟩ := Option.map_eq_some_iff.mp h
      cases hcons
      simp only [runSingly, hexec op s res mid hop, ih mid hrest, map_cons]

theorem runGroup_eq_runSingly
    (ops : List Op) (s : St) : runGroup exec single wrap ops s = runSingly single ops s := by
  unfold runGroup
  split
  · rfl
  · split
    · next results s' htry => exact (runSingly_of_tryAll hexec _ s htry).symm
    · rfl

end

theorem runGrouped_eq_runSingly (shares : Op → Bool)
    (hexec : ∀ op s res s', exec op s = .ok (res, s') → single op s = (wrap res, s')) {pending : List Op} :
    runGrouped shares exec single wrap pending ops s = runSingly single (pending ++ ops) s := by
  induction ops generalizing pending s with
  | nil => rw [runGrouped, runGroup_eq_runSingly hexec, append_nil]
  | cons op ops ih =>
    rw [runGrouped]
    split
    · rw [ih]
      simp
    · rw [runSingly_append, runGroup_eq_runSingly hexec]
      simp only [runSingly, ih, nil_append]

end Correctness

end Batching
