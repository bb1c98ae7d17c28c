import AtmCore.MailRuns
import AtmCore.NudgeStore

/-! Runs of the nudge store. Any number of callers mark, claim, requeue, release, re-arm, complete and restore, each in
a transaction of its own, while the writer changes the same state rows and the database may be opened again. What the
writer does to a marker is little: it clears it or leaves it, and only a read moves it. -/

namespace AtmCore

open Rows Option Table

/-- A call of the nudge store, with the clock reading it takes before its transaction. -/
inductive NudgeOp where
  | mark (member : MemberKey) (msg : AtmMessageId) (instant : IsoTimestamp)
  | claim (member : MemberKey) (now : IsoTimestamp)
  | requeue (member : MemberKey) (claim : NudgeClaim) (now : IsoTimestamp)
  | release (member : MemberKey) (claim : NudgeClaim) (now : IsoTimestamp)
  | rearm (member : MemberKey) (msg : AtmMessageId) (nextDue now : IsoTimestamp)
  | complete (member : MemberKey) (claim : NudgeClaim) (now : IsoTimestamp)
  | restore (member : MemberKey) (claim : NudgeClaim) (now : IsoTimestamp)

def NudgeOp.apply (codec : CronCodec) (op : NudgeOp) (db : Db) : Db :=
  match op with
  | .mark member msg instant => (markPending member msg instant).apply db
  | .claim member now =>
    match claimNextPending member codec now db with
    | .ok (_, db') => db'
    | .error _ => db
  | .requeue member held now => (requeuePending member held now).apply db
  | .release member held now => (releasePending member held now).apply db
  | .rearm member msg nextDue now => (rearmPendingAfterHandoff member msg nextDue now).apply db
  | .complete member held now => (completePendingBeforeTerminalHandoff member held now).apply db
  | .restore member held now => (restorePendingAfterFailedTerminalHandoff member held now).apply db

def NudgeOp.update (codec : CronCodec) (op : NudgeOp) (db : Db) : Option NudgeUpdate :=
  match op with
  | .mark member msg instant => some (markPending member msg instant)
  | .claim member now =>
    match nextPending member now db with
    | none => none
    | some row =>
      match row.messageKey.asAtmMessageId codec with
      | .ok _ => some (leasePending row now)
      | .error _ => none
  | .requeue member held now => some (requeuePending member held now)
  | .release member held now => some (releasePending member held now)
  | .rearm member msg nextDue now => some (rearmPendingAfterHandoff member msg nextDue now)
  | .complete member held now => some (completePendingBeforeTerminalHandoff member held now)
  | .restore member held now => some (restorePendingAfterFailedTerminalHandoff member held now)

/-- The message that a call hands out, with the failures that its claim names. -/
def NudgeOp.issues (codec : CronCodec) (op : NudgeOp) (db : Db) : Option (MailKey × Nat) :=
  match op with
  | .claim member now =>
    match claimNextPending member codec now db with
    | .ok (some taken, _) => some (member.mailKey taken.msg, taken.attempt)
    | _ => none
  | _ => none

variable {codec : CronCodec} {db db' : Db} {op : NudgeOp} {key : MailKey} {row : MessageStateRow}
  {world : World}

theorem claimNextPending_eq_some {member : MemberKey} {now : IsoTimestamp} {claim : NudgeClaim} :
    claimNextPending member codec now db = .ok (some claim, db') ↔
      ∃ row, nextPending member now db = some row ∧ row.messageKey.asAtmMessageId codec = .ok claim.msg ∧
        row.nudgeAttempts = claim.attempt ∧ db' = (leasePending row now).apply db := by
  rw [claimNextPending]
  cases nextPending member now db with
  | none => simp
  | some row =>
    cases hmsg : row.messageKey.asAtmMessageId codec with
    | error error => simp [hmsg]
    | ok msg =>
      obtain ⟨taken, attempt⟩ := claim
      simp [hmsg, Fallible.bind_ok, eq_comm, and_assoc, pure, Except.pure]

/-- A call makes its statement, or changes nothing. -/
theorem NudgeOp.apply_eq : op.apply codec db = ((op.update codec db).map (fun update => update.apply db)).getD db := by
  cases op with
  | claim member now =>
    simp only [NudgeOp.update, NudgeOp.apply, claimNextPending]
    cases nextPending member now db with
    | none => rfl
    | some row =>
      dsimp only
      cases row.messageKey.asAtmMessageId codec <;> rfl
  | mark | requeue | release | rearm | complete | restore => rfl

theorem NudgeOp.apply_of_update {update : NudgeUpdate} (h : op.update codec db = some update) :
    op.apply codec db = update.apply db := by
  rw [NudgeOp.apply_eq, h, map_some, getD_some]

theorem NudgeOp.apply_of_idle (h : op.update codec db = none) : op.apply codec db = db := by
  rw [NudgeOp.apply_eq, h, map_none, getD_none]

/-- A call changes the state of a message only by its statement. -/
theorem NudgeOp.find?_apply (h : (op.apply codec db).messageStates.find? key = some row) :
    ∃ stored, db.messageStates.find? key = some stored ∧ (row = stored ∨ ∃ update, op.update codec db = some update ∧
      update.key = key ∧ update.matching stored = true ∧ row = update.set stored) := by
  cases hupd : op.update codec db with
  | none =>
    rw [NudgeOp.apply_of_idle hupd] at h
    exact ⟨row, h, .inl rfl⟩
  | some update =>
    rw [NudgeOp.apply_of_update hupd, NudgeUpdate.find?_apply] at h
    obtain ⟨stored, hst, rfl⟩ := map_eq_some_iff.mp h
    refine ⟨stored, hst, ?_⟩
    rw [NudgeUpdate.onRow]
    split
    · next hboth => exact .inr ⟨update, rfl, hboth.1.symm.trans (key_of_find? hst), hboth.2, rfl⟩
    · exact .inl rfl

inductive QueueStep where
  | life (step : LifeStep)
  | nudge (op : NudgeOp)

def QueueStep.apply (codec : CronCodec) (world : World) (step : QueueStep) (db : Db) : Db :=
  match step with
  | .life step => step.apply world db
  | .nudge op => op.apply codec db

def queueRun (codec : CronCodec) (world : World) (steps : List QueueStep) (db : Db) : Db :=
  steps.foldl (fun db step => step.apply codec world db) db

theorem queueRun_keeps {P : Db → Prop} {steps : List QueueStep}
    (hstep : ∀ step ∈ steps, ∀ db, P db → P (step.apply codec world db)) (h : P db) :
    P (queueRun codec world steps db) := by
  induction steps generalizing db with
  | nil => exact h
  | cons step steps ih =>
    exact ih (fun later hlater => hstep later (List.mem_cons_of_mem _ hlater)) (hstep step List.mem_cons_self db h)

variable {old : Option MessageStateRow} {states : Table MessageStateRow.key} {updatedAt : IsoTimestamp}

section Markers

/-- What becomes of the marker of a message that is not nudged: `moved` says that it may have been read. -/
inductive MarkerKept (moved : Prop) (old : Option MessageStateRow) (row : MessageStateRow) : Prop where
  | cleared (hmarker : row.nudgePendingAt = none) (hattempts : row.nudgeAttempts = 0)
  | kept (stored : MessageStateRow) (hstored : old = some stored) (hattempts : row.nudgeAttempts = stored.nudgeAttempts)
      (hmarker : row.nudgePendingAt = none ∨ row.nudgePendingAt = stored.nudgePendingAt ∨
        moved ∧ stored.nudgePendingAt.isSome = true)

variable {moved : Prop}

theorem MarkerKept.refl : MarkerKept moved (some row) row := .kept row rfl rfl (.inr (.inl rfl))

theorem MarkerKept.trans {stored : MessageStateRow}
    (h : MarkerKept moved old stored) (h' : MarkerKept moved (some stored) row) : MarkerKept moved old row := by
  cases h' with
  | cleared hmark hatt => exact .cleared hmark hatt
  | kept _ hst hatt hmark =>
    cases hst
    cases h with
    | cleared hclears hzero =>
      refine .cleared ?_ (hatt.trans hzero)
      rcases hmark with hnone | hsame | ⟨-, hsome⟩
      · exact hnone
      · exact hsame.trans hclears
      · rw [hclears] at hsome
        cases hsome
    | kept first hfirst hattempts₁ hmarker₁ =>
      refine .kept first hfirst (hatt.trans hattempts₁) ?_
      rcases hmark with hnone | hsame | ⟨hmoved, hsome⟩
      · exact .inl hnone
      · rw [hsame]
        exact hmarker₁
      · rcases hmarker₁ with hnone | hsame | hboth
        · rw [hnone] at hsome
          cases hsome
        · exact .inr (.inr ⟨hmoved, hsame ▸ hsome⟩)
        · exact .inr (.inr hboth)

/-- A message that is still marked was marked before, with the same number of failures. -/
theorem MarkerKept.marked (h : MarkerKept moved old row) (hmark : row.nudgePendingAt.isSome = true) :
    ∃ stored, old = some stored ∧ stored.nudgePendingAt.isSome = true ∧ row.nudgeAttempts = stored.nudgeAttempts := by
  cases h with
  | cleared hmarker hatt =>
    rw [hmarker] at hmark
    cases hmark
  | kept stored hst hatt hmarker =>
    refine ⟨stored, hst, ?_, hatt⟩
    rcases hmarker with hnone | hsame | ⟨-, hsome⟩
    · rw [hnone] at hmark
      cases hmark
    · exact hsame ▸ hmark
    · exact hsome

theorem upsertMessageState_markerKept {record : Message}
    (h : (upsertMessageState states record updatedAt).find? key = some row) :
    MarkerKept moved (states.find? key) row := by
  rw [find?_upsertMessageState] at h
  split at h
  · cases h
    cases states.find? key with
    | none => exact .cleared rfl rfl
    | some stored =>
      refine .kept stored rfl rfl ?_
      change (if _ then none else stored.nudgePendingAt) = none ∨ (if _ then none else stored.nudgePendingAt) = _ ∨ _
      split
      · exact .inl rfl
      · exact .inr (.inl rfl)
  · rw [h]
    exact .refl

theorem markMessageRead_markerKept {target : MailKey} {nextDue : IsoTimestamp} (hmoved : target = key → moved)
    (h : (markMessageRead states target updatedAt nextDue).find? key = some row) :
    MarkerKept moved (states.find? key) row := by
  rw [markMessageRead, find?_mapRows] at h
  obtain ⟨stored, hst, rfl⟩ := map_eq_some_iff.mp h
  rw [hst]
  split
  · next hread =>
    refine .kept stored rfl rfl ?_
    split
    · next hmark =>
      simp only [Bool.and_eq_true] at hmark
      have htarget : target = key := hread.1.symm.trans (key_of_find? hst)
      exact .inr (.inr ⟨hmoved htarget, hmark.1.1⟩)
    · exact .inl rfl
  · exact .refl

theorem MailAct.Does.markerKept {act : MailAct} (h : act.Does world db db') (hmoved : act = .read key → moved)
    (hrow : db'.messageStates.find? key = some row) : MarkerKept moved (db.messageStates.find? key) row := by
  cases h with
  | store recordedAt stored hfr hprep hconf hmail hstates | acknowledge requested updatedAt hload hpend hmail hstates =>
    exact upsertMessageState_markerKept (hstates ▸ hrow)
  | restate updatedAt stored hst hmail hstates => exact upsertMessageState_markerKept (hstates ▸ hrow)
  | decompose hmail hstates =>
    rw [hstates] at hrow
    rw [hrow]
    exact .refl
  | read updatedAt nextDue hmail hstates =>
    exact markMessageRead_markerKept (fun htarget => hmoved (congrArg MailAct.read htarget)) (hstates ▸ hrow)
  | delete hmail hstates =>
    rw [hstates, find?_filterRows] at hrow
    rw [(filter_eq_some_iff.mp hrow).1]
    exact .refl
  | reopen hmail hstates =>
    rw [hstates, normalizeLegacyAssignmentMarkers, find?_mapRows] at hrow
    obtain ⟨stored, hst, rfl⟩ := map_eq_some_iff.mp hrow
    rw [hst]
    split
    · exact .cleared rfl rfl
    · exact .refl

theorem MailPath.markerKept {guard : MailGuard} (h : MailPath world guard db db')
    (hmoved : ∀ db, guard (.read key) db → moved) :
    ∀ row, db'.messageStates.find? key = some row → MarkerKept moved (db.messageStates.find? key) row := by
  refine MailPath.keeps (P := fun db' => ∀ row, db'.messageStates.find? key = some row →
    MarkerKept moved (db.messageStates.find? key) row) ?_ ?_ h ?_
  · intro db₁ db₂ hsame hkept row hrow
    exact hkept row (hsame.states ▸ hrow)
  · intro act db₁ db₂ hguard hdoes hkept row hrow
    have hact := hdoes.markerKept (fun heq => hmoved db₁ (heq ▸ hguard)) hrow
    cases hst : db₁.messageStates.find? key with
    | some stored =>
      rw [hst] at hact
      exact (hkept stored hst).trans hact
    | none =>
      rw [hst] at hact
      cases hact with
      | cleared hmark hatt => exact .cleared hmark hatt
      | kept stored hst => cases hst
  · intro row hrow
    rw [hrow]
    exact .refl

end Markers

end AtmCore
