import AtmCore.CronHandover
import AtmCore.NudgeLeases

/-! The fence of a claim. A claim names the number of failures its message had when it was taken, and a requeue, a
release or a completion goes through only for a message that still has this number. A message that is claimed again has
the same number as before, and the number starts again at zero when a message is marked again or has failed too often.
So the fence holds just as long as no message is given a number that one of its superseded claims carries. -/

namespace AtmCore

open Rows List Option MessageStateRow NudgeUpdate Table

/-- The claims of a run, the last one first, each with its message and its number. -/
abbrev ClaimLog := List (MailKey × Nat)

/-- The numbers of the claims of a message that a later claim has superseded. -/
def superseded (log : ClaimLog) (key : MailKey) : List Nat :=
  ((log.filter (fun claim => decide (claim.1 = key))).map Prod.snd).tail

def QueueStep.log (codec : CronCodec) (step : QueueStep) (log : ClaimLog) (db : Db) : ClaimLog :=
  match step with
  | .life _ => log
  | .nudge op => (op.issues codec db).toList ++ log

def queueLog (codec : CronCodec) (world : World) : List QueueStep → ClaimLog → Db → ClaimLog
  | [], log, _ => log
  | step :: steps, log, db => queueLog codec world steps (step.log codec log db) (step.apply codec world db)

/-- A superseded claim has no effect: neither its requeue nor its release changes anything, and its completion changes
nothing and reports so. -/
def Fenced (log : ClaimLog) (db : Db) : Prop :=
  ∀ (member : MemberKey) (claim : NudgeClaim), claim.attempt ∈ superseded log (member.mailKey claim.msg) → ∀ now,
    (requeuePending member claim now).apply db = db ∧ (releasePending member claim now).apply db = db ∧
      (completePendingBeforeTerminalHandoff member claim now).apply db = db ∧
      (completePendingBeforeTerminalHandoff member claim now).changes db = false

/-- A call gives a message no number of a superseded claim of it. -/
def NudgeOp.Renumbers (op : NudgeOp) (codec : CronCodec) (log : ClaimLog) (db : Db) : Prop :=
  match op with
  | .claim member now => ∀ row msg, nextPending member now db = some row →
    row.messageKey.asAtmMessageId codec = .ok msg →
      (member.mailKey msg, row.nudgeAttempts) ∉ log
  | .mark member msg _ => ∀ row, db.messageStates.find? (member.mailKey msg) = some row → row.read = false →
      row.deletedAt = none → 0 ∉ superseded log (member.mailKey msg)
  | .requeue member held _ => ∀ row, db.messageStates.find? (member.mailKey held.msg) = some row →
      held.holds row = true →
      (if maxNudgeAttempts ≤ held.attempt + 1 then 0 else held.attempt + 1) ∉ superseded log (member.mailKey held.msg)
  | .rearm member msg _ _ => ∀ row, db.messageStates.find? (member.mailKey msg) = some row → row.isOpen = true →
      row.nudgeAttempts ∉ superseded log (member.mailKey msg)
  | .restore member held _ => ∀ row, db.messageStates.find? (member.mailKey held.msg) = some row →
      row.nudgePendingAt = none → row.nudgeAttempts = held.attempt → row.isOpen = true →
      held.attempt ∉ superseded log (member.mailKey held.msg)
  | .release _ _ _ => True
  | .complete _ _ _ => True

/-- Every call of a run gives its message no number of a superseded claim. -/
def RenumbersAll (codec : CronCodec) (world : World) : List QueueStep → ClaimLog → Db → Prop
  | [], _, _ => True
  | step :: steps, log, db =>
    (∀ op, step = .nudge op → op.Renumbers codec log db) ∧
      RenumbersAll codec world steps (step.log codec log db) (step.apply codec world db)

variable {codec : CronCodec} {world : World} {log : ClaimLog} {db : Db}

theorem mem_superseded_cons {key : MailKey} {n m : Nat} : m ∈ superseded ((key, n) :: log) key ↔ (key, m) ∈ log := by
  rw [superseded, filter_cons_of_pos (by simp), map_cons, tail_cons]
  simp [List.mem_map, mem_filter]

/-- No marked message has the number of a superseded claim. -/
def NumbersFresh (log : ClaimLog) (db : Db) : Prop :=
  ∀ key row, db.messageStates.find? key = some row → row.nudgePendingAt.isSome = true →
    row.nudgeAttempts ∉ superseded log key

theorem NumbersFresh.fenced (h : NumbersFresh log db) : Fenced log db := by
  intro member claim hsupersedes now
  have hnone : (db.messageStates.find? (member.mailKey claim.msg)).any claim.holds = false := by
    cases hrow : db.messageStates.find? (member.mailKey claim.msg) with
    | none => rfl
    | some row =>
      rw [any_some, Bool.eq_false_iff]
      intro hholds
      simp only [NudgeClaim.holds, Bool.and_eq_true, decide_eq_true_eq] at hholds
      exact h _ row hrow hholds.1.1 (hholds.1.2 ▸ hsupersedes)
  exact ⟨apply_of_unchanged hnone, apply_of_unchanged hnone,
    apply_of_unchanged hnone, hnone⟩

theorem NumbersFresh.life (h : NumbersFresh log db) (step : LifeStep) : NumbersFresh log (step.apply world db) := by
  intro key row hrow hmark
  have hkept : MarkerKept True (db.messageStates.find? key) row :=
    (step.path db).markerKept (fun _ _ => trivial) row hrow
  obtain ⟨stored, hst, hsome, hatt⟩ := hkept.marked hmark
  rw [hatt]
  exact h key stored hst hsome

variable {member : MemberKey} {now : IsoTimestamp} {row : MessageStateRow} {msg : AtmMessageId}
  {steps : List QueueStep}

section

variable (hnext : nextPending member now db = some row) (hmsg : row.messageKey.asAtmMessageId codec = .ok msg)
include hnext hmsg

theorem NudgeOp.issues_claim :
    (NudgeOp.claim member now).issues codec db = some (member.mailKey msg, row.nudgeAttempts) := by
  have hclaim : claimNextPending member codec now db =
      .ok (some ⟨msg, row.nudgeAttempts⟩, (leasePending row now).apply db) :=
    claimNextPending_eq_some.mpr ⟨row, hnext, hmsg, rfl, rfl⟩
  simp only [NudgeOp.issues, hclaim]

theorem MarksSound.nextPending_key (h : MarksSound db) : row.key = member.mailKey msg := by
  have hclaim : claimNextPending member codec now db =
      .ok (some ⟨msg, row.nudgeAttempts⟩, (leasePending row now).apply db) :=
    claimNextPending_eq_some.mpr ⟨row, hnext, hmsg, rfl, rfl⟩
  obtain ⟨taken, htaken, hkey, -⟩ := h.claimed hclaim
  obtain rfl : row = taken := some.inj (hnext.symm.trans htaken)
  exact hkey

end

/-- A claim with a number of its own leaves all numbers fresh. -/
theorem NumbersFresh.claim (h : NumbersFresh log db) (hs : MarksSound db)
    (hnew : (NudgeOp.claim member now).Renumbers codec log db) :
    NumbersFresh ((QueueStep.nudge (.claim member now)).log codec log db)
    ((NudgeOp.claim member now).apply codec db) := by
  cases hupd : (NudgeOp.claim member now).update codec db with
  | none =>
    have hissues : (NudgeOp.claim member now).issues codec db = none := by
      simp only [NudgeOp.issues]
      split
      · next taken _ hclaim =>
        obtain ⟨row, hnext, hmsg, -, -⟩ := claimNextPending_eq_some.mp hclaim
        simp only [NudgeOp.update, hnext, hmsg] at hupd
        cases hupd
      · rfl
    rw [NudgeOp.apply_of_idle hupd, QueueStep.log, hissues]
    exact h
  | some update =>
    obtain ⟨taken, msg, hnext, hmsg, rfl⟩ := NudgeOp.update_claim hupd
    have hkey := hs.nextPending_key hnext hmsg
    have htaken := find?_key (nextPending_eq_some hnext).1
    rw [QueueStep.log, NudgeOp.issues_claim hnext hmsg, NudgeOp.apply_of_update hupd]
    intro key row hrow hmark
    rw [NudgeUpdate.find?_apply] at hrow
    obtain ⟨stored, hst, rfl⟩ := map_eq_some_iff.mp hrow
    by_cases hsame : member.mailKey msg = key
    · subst hsame
      rw [← hkey, htaken] at hst
      cases hst
      rw [NudgeUpdate.onRow, if_pos ⟨rfl, rfl⟩]
      exact fun hmem => hnew taken msg hnext hmsg (mem_superseded_cons.mp hmem)
    · have hother :
        ¬ (stored.key = (leasePending taken now).key ∧ (leasePending taken now).matching stored = true) := by
        rintro ⟨heq, -⟩
        exact hsame (hkey.symm.trans (heq.symm.trans (key_of_find? hst)))
      rw [NudgeUpdate.onRow, if_neg hother] at hmark ⊢
      rw [toList_some, singleton_append, superseded, filter_cons_of_neg (by simpa using hsame)]
      exact h key stored hst hmark

theorem NumbersFresh.update (h : NumbersFresh log db) {update : NudgeUpdate}
    (hnew : ∀ stored, db.messageStates.find? update.key = some stored → update.matching stored = true →
      update.due.isSome = true → update.attempts stored ∉ superseded log update.key) :
    NumbersFresh log (update.apply db) := by
  intro key row hrow hmark
  rw [NudgeUpdate.find?_apply] at hrow
  obtain ⟨stored, hst, rfl⟩ := map_eq_some_iff.mp hrow
  by_cases hboth : stored.key = update.key ∧ update.matching stored = true
  · rw [NudgeUpdate.onRow, if_pos hboth] at hmark ⊢
    obtain rfl : update.key = key := hboth.1.symm.trans (key_of_find? hst)
    exact hnew stored hst hboth.2 hmark
  · rw [NudgeUpdate.onRow, if_neg hboth] at hmark ⊢
    exact h key stored hst hmark

theorem NumbersFresh.nudge (h : NumbersFresh log db) (hs : MarksSound db) {op : NudgeOp}
    (hnew : op.Renumbers codec log db) :
    NumbersFresh ((QueueStep.nudge op).log codec log db) (op.apply codec db) := by
  cases op with
  | claim member now => exact h.claim hs hnew
  | mark member msg instant =>
    refine h.update (fun stored hst hmatch _ => ?_)
    simp only [markPending, Bool.and_eq_true, Bool.not_eq_true', isNone_iff_eq_none] at hmatch
    exact hnew stored hst hmatch.1 hmatch.2
  | requeue | rearm => exact h.update (fun stored hst hmatch _ => hnew stored hst hmatch)
  | release member held now =>
    refine h.update (fun stored hst hmatch _ => ?_)
    simp only [releasePending, NudgeClaim.holds, Bool.and_eq_true] at hmatch
    exact h _ stored hst hmatch.1.1
  | complete member held now => exact h.update (fun stored hst hmatch hdue => by cases hdue)
  | restore member held now =>
    refine h.update (fun stored hst hmatch _ => ?_)
    simp only [restorePendingAfterFailedTerminalHandoff, Bool.and_eq_true, decide_eq_true_eq,
      isNone_iff_eq_none] at hmatch
    have hfr := hnew stored hst hmatch.1.1 hmatch.1.2 hmatch.2
    rwa [← hmatch.1.2] at hfr

/-- Numbers that stay fresh fence the superseded claims of every state of a run. -/
theorem RenumbersAll.fenced :
    ∀ {log : ClaimLog} {db : Db}, MarksSound db → NumbersFresh log db → RenumbersAll codec world steps log db →
      ∀ before after, steps = before ++ after →
        Fenced (queueLog codec world before log db) (queueRun codec world before db) := by
  induction steps with
  | nil =>
    intro log db _ hfr _ before after hsplit
    obtain ⟨rfl, rfl⟩ := nil_eq_append_iff.mp hsplit
    exact hfr.fenced
  | cons step steps ih =>
    rintro log db hs hfr ⟨hnew, hrest⟩ before after hsplit
    have hstep : NumbersFresh (step.log codec log db) (step.apply codec world db) := by
      cases step with
      | life step => exact hfr.life step
      | nudge op => exact hfr.nudge hs (hnew op rfl)
    cases before with
    | nil => exact hfr.fenced
    | cons first before =>
      cases hsplit
      exact ih (hs.step step) hstep hrest before after rfl

theorem Fenced.number (h : Fenced log db) (hrow : db.messageStates.find? (member.mailKey msg) = some row)
    (hmark : row.nudgePendingAt.isSome = true) (hopen : row.isOpen = true) :
    row.nudgeAttempts ∉ superseded log (member.mailKey msg) := by
  intro hsupersedes
  have hchanges := (h member ⟨msg, row.nudgeAttempts⟩ hsupersedes ⟨0⟩).2.2.2
  simp only [NudgeUpdate.changes, completePendingBeforeTerminalHandoff, hrow, any_some, NudgeClaim.holds,
    hmark, hopen, decide_true, Bool.and_self] at hchanges
  cases hchanges

theorem Fenced.update {update : NudgeUpdate} (h : Fenced log (update.apply db))
    (hkey : update.key = member.mailKey msg) (hrow : db.messageStates.find? (member.mailKey msg) = some row)
    (hmatch : update.matching row = true) (hdue : update.due.isSome = true) (hopen : row.isOpen = true) :
    update.attempts row ∉ superseded log (member.mailKey msg) := by
  have hset : (update.apply db).messageStates.find? (member.mailKey msg) = some (update.set row) := by
    rw [NudgeUpdate.find?_apply, hrow, map_some, NudgeUpdate.onRow,
      if_pos ⟨(key_of_find? hrow).trans hkey.symm, hmatch⟩]
  exact h.number hset hdue hopen

theorem Fenced.renumbers (hs : MarksSound db) {op : NudgeOp}
    (h : Fenced ((QueueStep.nudge op).log codec log db) (op.apply codec db)) : op.Renumbers codec log db := by
  cases op with
  | claim member now =>
    intro row msg hnext hmsg hmem
    obtain ⟨hrow, hpend, -⟩ := nextPending_eq_some hnext
    have hkey := hs.nextPending_key hnext hmsg
    have hupd : (NudgeOp.claim member now).update codec db = some (leasePending row now) := by
      simp only [NudgeOp.update, hnext, hmsg]
    rw [QueueStep.log, NudgeOp.issues_claim hnext hmsg, NudgeOp.apply_of_update hupd] at h
    refine h.update hkey (hkey ▸ find?_key hrow) rfl rfl (pendingFor_parts hpend).2.2 ?_
    exact mem_superseded_cons.mpr hmem
  | mark member msg instant =>
    intro row hrow hread hdel
    have hmatch : (markPending member msg instant).matching row = true := by
      simp only [markPending, hread, hdel, Bool.not_false, isNone_none, Bool.and_self]
    have hopen : row.isOpen = true := by
      simp only [MessageStateRow.isOpen, hread, hdel, Bool.not_false, Bool.true_or, isNone_none, Bool.and_self]
    exact Fenced.update h rfl hrow hmatch rfl hopen
  | requeue member held now =>
    exact fun row hrow hholds => Fenced.update h rfl hrow hholds rfl (NudgeClaim.isOpen_of_holds hholds)
  | rearm member msg nextDue now => exact fun row hrow hopen => Fenced.update h rfl hrow hopen rfl hopen
  | restore member held now =>
    intro row hrow hmark hatt hopen
    have hmatch : (restorePendingAfterFailedTerminalHandoff member held now).matching row = true := by
      simp only [restorePendingAfterFailedTerminalHandoff, hmark, hatt, hopen, isNone_none, decide_true,
        Bool.and_self]
    have hfr := Fenced.update h rfl hrow hmatch rfl hopen
    rwa [show (restorePendingAfterFailedTerminalHandoff member held now).attempts row = held.attempt from hatt]
      at hfr
  | release | complete => trivial

theorem RenumbersAll.of_fenced : ∀ {log : ClaimLog} {db : Db}, MarksSound db →
      (∀ before after, steps = before ++ after →
        Fenced (queueLog codec world before log db) (queueRun codec world before db)) →
      RenumbersAll codec world steps log db := by
  induction steps with
  | nil => exact fun _ _ => trivial
  | cons step steps ih =>
    intro log db hs hfenced
    refine ⟨?_, ih (hs.step step) (fun before after hsplit => ?_)⟩
    · rintro op rfl
      exact Fenced.renumbers hs (hfenced [.nudge op] steps rfl)
    · exact hfenced (step :: before) after (congrArg (step :: ·) hsplit)

/-- In a run from an empty database every superseded claim has no effect in every state just in case no call gives a
message a number of a superseded claim. -/
theorem superseded_claims_fenced (codec : CronCodec) (world : World) (steps : List QueueStep) :
    (∀ before after, steps = before ++ after →
      Fenced (queueLog codec world before [] .empty) (queueRun codec world before .empty)) ↔
      RenumbersAll codec world steps [] .empty := by
  refine ⟨RenumbersAll.of_fenced marksSound_empty, RenumbersAll.fenced marksSound_empty ?_⟩
  intro key row hrow
  cases hrow

section Claimable

/-- A claim leaves fewer messages due, and the other ones as they are. -/
theorem leasePending_pendingFor {taken : MessageStateRow} (htaken : taken ∈ db.messageStates.rows)
    (hpend : taken.pendingFor member now = true) :
    (((leasePending taken now).apply db).messageStates.rows.filter (·.pendingFor member now)).length <
      (db.messageStates.rows.filter (·.pendingFor member now)).length := by
  have hlater : ∀ row : MessageStateRow, ((leasePending taken now).onRow row).pendingFor member now =
      (decide (row.key ≠ taken.key) && row.pendingFor member now) := by
    intro row
    by_cases hkey : row.key = taken.key
    · have hdue : ((leasePending taken now).set row).dueBy now = false := by
        refine decide_eq_false (fun hle : (nextReminderDue now).nanos ≤ now.nanos => ?_)
        have heq : (nextReminderDue now).nanos = now.nanos + 60000 * 1000000 := rfl
        omega
      rw [NudgeUpdate.onRow, if_pos ⟨hkey, rfl⟩, MessageStateRow.pendingFor, hdue]
      simp [hkey]
    · rw [NudgeUpdate.onRow, if_neg (fun hboth => hkey hboth.1)]
      simp [hkey]
  have hrows : ((leasePending taken now).apply db).messageStates.rows.filter (·.pendingFor member now) =
      ((db.messageStates.rows.filter (·.pendingFor member now)).filter (fun row => decide (row.key ≠ taken.key))).map
        (leasePending taken now).onRow := by
    rw [NudgeUpdate.apply, mapRows_rows, List.filter_map, List.filter_filter]
    exact congrArg (List.map _) (filter_congr (fun row _ => hlater row))
  rw [hrows, length_map]
  exact length_filter_lt_length_iff_exists.mpr ⟨taken, mem_filter.mpr ⟨htaken, hpend⟩, by simp⟩

/-- One claim after the other takes the messages that are due, until it is the turn of this one. -/
theorem MarksSound.claimable (hs : MarksSound db) (codec : CronCodec) (world : World)
    (hrow : row ∈ db.messageStates.rows) (hpend : row.pendingFor member now = true) :
    ∃ n, (NudgeOp.claim member now).issues codec
      (queueRun codec world (List.replicate n (.nudge (.claim member now))) db) =
        some (row.key, row.nudgeAttempts) := by
  induction hleft : (db.messageStates.rows.filter (·.pendingFor member now)).length using Nat.strong_induction_on
    generalizing db with
  | _ left ih =>
    cases hnext : nextPending member now db with
    | none =>
      rw [nextPending_eq_none hnext row hrow (hs.attempts _ _ (find?_key hrow))] at hpend
      cases hpend
    | some taken =>
      obtain ⟨htaken, hdue, -⟩ := nextPending_eq_some hnext
      obtain ⟨-, ⟨due, hmark, -⟩, -⟩ := pendingFor_parts hdue
      obtain ⟨id, hid⟩ := hs.keys _ _ (find?_key htaken) (isSome_iff_exists.mpr ⟨due, hmark⟩)
      have hmsg : taken.messageKey.asAtmMessageId codec = .ok id := hid ▸ MessageKey.asAtmMessageId_fromAtmMessageId
      by_cases hsame : row.key = taken.key
      · obtain rfl := db.messageStates.eq_of_key_eq hrow htaken hsame
        refine ⟨0, (NudgeOp.issues_claim hnext hmsg).trans ?_⟩
        rw [hs.nextPending_key hnext hmsg]
      · have happ : (NudgeOp.claim member now).apply codec db = (leasePending taken now).apply db :=
          NudgeOp.apply_of_update (by simp only [NudgeOp.update, hnext, hmsg])
        have hkept : row ∈ ((NudgeOp.claim member now).apply codec db).messageStates.rows := by
          rw [happ, NudgeUpdate.apply, mapRows_rows]
          exact List.mem_map.mpr ⟨row, hrow, if_neg (fun hboth => hsame hboth.1)⟩
        have hless := leasePending_pendingFor htaken hdue
        rw [← happ, hleft] at hless
        obtain ⟨n, hissued⟩ := ih _ hless (hs.nudge (.claim member now)) hkept rfl
        exact ⟨n + 1, hissued⟩

/-- In every state that a run from an empty database reaches: the failures of every message are below the limit, and a
message that is open and marked is handed out, once its time has come, after some number of claims of its member. -/
theorem marked_messages_handed_out (codec : CronCodec) (world : World) (steps : List QueueStep) (row : MessageStateRow)
    (hrow : row ∈ (queueRun codec world steps .empty).messageStates.rows) : row.nudgeAttempts < maxNudgeAttempts ∧
    ∀ due now : IsoTimestamp, row.isOpen = true → row.nudgePendingAt = some due → due.nanos ≤ now.nanos →
      ∃ claims, (NudgeOp.claim ⟨row.team, row.agent⟩ now).issues codec (queueRun codec world
        (steps ++ List.replicate claims (.nudge (.claim ⟨row.team, row.agent⟩ now))) .empty) =
          some (row.key, row.nudgeAttempts) := by
  have hsound := queueRun_marksSound codec world steps
  refine ⟨hsound.attempts _ _ (find?_key hrow), fun due now hopen hmarked hdue => ?_⟩
  have hpending : row.pendingFor ⟨row.team, row.agent⟩ now = true := by
    simp [MessageStateRow.pendingFor, MessageStateRow.isOf, MessageStateRow.dueBy, hmarked, hdue, hopen]
  obtain ⟨claims, hissued⟩ := hsound.claimable codec world hrow hpending
  refine ⟨claims, ?_⟩
  rw [queueRun, foldl_append]
  exact hissued

end Claimable

section Sample

def sampleNudged : AtmMessageId := ⟨7, by decide⟩

def sampleNudgedMember : MemberKey := ⟨sampleTeam, sampleMember⟩

def sampleClaim : NudgeClaim := ⟨sampleNudged, 0⟩

/-- A message is marked and claimed, and claimed again by another worker when the lease is over. -/
def sampleExpiredLease : List QueueStep := [
  .life (.store (sampleWrite (sampleMessage sampleLead sampleMember 7))),
  .nudge (.mark sampleNudgedMember sampleNudged ⟨0⟩),
  .nudge (.claim sampleNudgedMember ⟨0⟩),
  .nudge (.claim sampleNudgedMember ⟨60000000000⟩)]

/-- Both workers failed to hand it over; when the second lease is over, the message is handed out again. -/
theorem twice_claimed_message_handed_out :
    ∃ row ∈ (queueRun .ulid .accepting sampleExpiredLease .empty).messageStates.rows,
    row.nudgeAttempts < maxNudgeAttempts ∧ ∃ claims, (NudgeOp.claim ⟨row.team, row.agent⟩ ⟨120000000000⟩).issues .ulid
      (queueRun .ulid .accepting (sampleExpiredLease ++
        List.replicate claims (.nudge (.claim ⟨row.team, row.agent⟩ ⟨120000000000⟩))) .empty) =
          some (row.key, row.nudgeAttempts) := by
  have hmarked : (queueRun .ulid .accepting sampleExpiredLease .empty).messageStates.rows.any (fun row =>
      row.isOpen && decide (row.nudgePendingAt = some ⟨120000000000⟩)) = true := by decide +kernel
  obtain ⟨row, hrow, hopen⟩ := List.any_eq_true.mp hmarked
  rw [Bool.and_eq_true, decide_eq_true_iff] at hopen
  obtain ⟨hfew, hclaims⟩ := marked_messages_handed_out .ulid .accepting sampleExpiredLease row hrow
  exact ⟨row, hrow, hfew, hclaims _ ⟨120000000000⟩ hopen.1 hopen.2 (le_refl _)⟩

/-- The first worker's completion goes through and clears the marker of the second worker's claim. -/
theorem expired_claim_completes :
    sampleClaim.attempt ∈ superseded (queueLog .ulid .accepting sampleExpiredLease [] .empty)
      (sampleNudgedMember.mailKey sampleClaim.msg) ∧
    (completePendingBeforeTerminalHandoff sampleNudgedMember sampleClaim ⟨60000000001⟩).changes
      (queueRun .ulid .accepting sampleExpiredLease .empty) = true := by
  decide +kernel

end Sample

end AtmCore
