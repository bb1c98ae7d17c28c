import AtmCore.NudgeRuns
import AtmCore.KeyedLists

/-! The lease of a claim. A claim moves the instant its message is due one reminder interval on, and nothing but the
calls for that message and a read of it moves that instant again. So until the interval is over no claim takes the
message, whoever claims. -/

namespace AtmCore

open Rows List Option Table

variable {update : NudgeUpdate} {db : Db} {codec : CronCodec} {instant : IsoTimestamp}

section Claims

variable {member : MemberKey} {codec : CronCodec} {now : IsoTimestamp} {db : Db} {row : MessageStateRow}

/-- A message of the member that is marked, due and open. -/
def MessageStateRow.pendingFor (row : MessageStateRow) (member : MemberKey) (now : IsoTimestamp) : Bool :=
  row.isOf member && row.dueBy now && row.isOpen

theorem MessageStateRow.mailKey_of_isOf {msg : AtmMessageId} (hof : row.isOf member = true)
    (hkey : row.messageKey = .fromAtmMessageId msg) : row.key = member.mailKey msg := by
  simp only [MessageStateRow.isOf, Bool.and_eq_true, decide_eq_true_eq] at hof
  rw [MessageStateRow.key, MemberKey.mailKey, hof.1, hof.2, hkey]

theorem mem_pendingFor {p : MessageStateRow → Bool} {rows : List MessageStateRow} :
    row ∈ rows.filter (fun row => row.isOf member && row.dueBy now && row.isOpen && p row) ↔
      row ∈ rows ∧ row.pendingFor member now = true ∧ p row = true := by
  rw [mem_filter, MessageStateRow.pendingFor, Bool.and_eq_true]

/-- The row of the next claim is the first one by its key. -/
theorem nextPending_eq_some (h : nextPending member now db = some row) :
    row ∈ db.messageStates.rows ∧ row.pendingFor member now = true ∧ row.nudgeAttempts < maxNudgeAttempts ∧
      ∀ other ∈ db.messageStates.rows, other.pendingFor member now = true → other.nudgeAttempts < maxNudgeAttempts →
        row.messageKey.val ≤ other.messageKey.val := by
  rw [nextPending] at h
  have htra : ∀ a b c, keyAscending a b = true → keyAscending b c = true → keyAscending a c = true := by
    intro a b c hab hbc
    exact decide_eq_true (le_trans (of_decide_eq_true hab) (of_decide_eq_true hbc))
  have htotal : ∀ a b, (keyAscending a b || keyAscending b a) = true := by
    intro a b
    rw [Bool.or_eq_true]
    exact (le_total a.messageKey.val b.messageKey.val).imp decide_eq_true decide_eq_true
  obtain ⟨hmem, hfirst⟩ := SortLimit.head?_mergeSort htra htotal h
  obtain ⟨hrow, hpend, hatt⟩ := mem_pendingFor.mp hmem
  refine ⟨hrow, hpend, of_decide_eq_true hatt, fun other hother hopen hfew => ?_⟩
  exact of_decide_eq_true (hfirst other (mem_pendingFor.mpr ⟨hother, hopen, decide_eq_true hfew⟩))

theorem nextPending_eq_none (h : nextPending member now db = none) :
    ∀ row ∈ db.messageStates.rows, row.nudgeAttempts < maxNudgeAttempts → row.pendingFor member now = false := by
  intro row hrow hatt
  rw [Bool.eq_false_iff]
  intro hpend
  rw [nextPending, head?_eq_none_iff] at h
  have hmem := (mem_pendingFor (p := fun row => decide (row.nudgeAttempts < maxNudgeAttempts))).mpr
    ⟨hrow, hpend, decide_eq_true hatt⟩
  rw [← (mergeSort_perm _ keyAscending).mem_iff, h] at hmem
  cases hmem

theorem MessageStateRow.pendingFor_parts (h : row.pendingFor member now = true) :
    row.isOf member = true ∧ (∃ due, row.nudgePendingAt = some due ∧ due.nanos ≤ now.nanos) ∧ row.isOpen = true := by
  simp only [MessageStateRow.pendingFor, Bool.and_eq_true] at h
  obtain ⟨due, hdue, hle⟩ := (Option.any_eq_true _ _).mp h.1.2
  exact ⟨h.1.1, ⟨due, hdue, of_decide_eq_true hle⟩, h.2⟩

/-- The statement of a claim is the lease of the row it takes. -/
theorem NudgeOp.update_claim (h : (NudgeOp.claim member now).update codec db = some update) :
    ∃ row msg, nextPending member now db = some row ∧ row.messageKey.asAtmMessageId codec = .ok msg ∧
      update = leasePending row now := by
  simp only [NudgeOp.update] at h
  cases hnext : nextPending member now db with
  | none =>
    rw [hnext] at h
    cases h
  | some row =>
    rw [hnext] at h
    dsimp only at h
    cases hmsg : row.messageKey.asAtmMessageId codec with
    | error error =>
      rw [hmsg] at h
      cases h
    | ok msg =>
      rw [hmsg] at h
      exact ⟨row, msg, rfl, hmsg, (some.inj h).symm⟩

end Claims

section Sound

/-- The failures of a message stay below the limit, and only messages with an id are marked. -/
structure MarksSound (db : Db) : Prop where
  attempts : ∀ key row, db.messageStates.find? key = some row → row.nudgeAttempts < maxNudgeAttempts
  keys : ∀ key row, db.messageStates.find? key = some row → row.nudgePendingAt.isSome = true →
    ∃ id, row.messageKey = .fromAtmMessageId id

theorem marksSound_empty : MarksSound .empty := ⟨fun _ _ h => (nomatch h), fun _ _ h => (nomatch h)⟩

variable {world : World}

theorem MarksSound.of_path {db' : Db} (h : MarksSound db) (hpath : MailPath world anyAct db db') :
    MarksSound db' := by
  have hkept : ∀ key row, db'.messageStates.find? key = some row → MarkerKept True (db.messageStates.find? key) row :=
    fun key => hpath.markerKept (fun _ _ => trivial)
  constructor
  · intro key row hrow
    cases hkept key row hrow with
    | cleared hmark hatt =>
      rw [hatt]
      decide
    | kept stored hst hatt hmark =>
      rw [hatt]
      exact h.attempts key stored hst
  · intro key row hrow hmarked
    obtain ⟨stored, hst, hsome, -⟩ := (hkept key row hrow).marked hmarked
    obtain ⟨id, hid⟩ := h.keys key stored hst hsome
    refine ⟨id, ?_⟩
    have hkey : row.key = stored.key := (key_of_find? hrow).trans (key_of_find? hst).symm
    exact (congrArg (fun key : MailKey => key.2.2) hkey).trans hid

/-- A statement that marks a message is for a message with an id, and keeps the failures below the limit. -/
theorem NudgeOp.update_sound {op : NudgeOp} {stored : MessageStateRow} (h : MarksSound db)
    (hupd : op.update codec db = some update) (hst : db.messageStates.find? update.key = some stored) :
    update.attempts stored < maxNudgeAttempts ∧ ∃ id, update.key.2.2 = .fromAtmMessageId id := by
  have hatt := h.attempts update.key stored hst
  cases op with
  | claim member now =>
    obtain ⟨row, -, hnext, -, rfl⟩ := NudgeOp.update_claim hupd
    obtain ⟨hrow, hpend, -⟩ := nextPending_eq_some hnext
    obtain ⟨-, ⟨due, hdue, -⟩, -⟩ := MessageStateRow.pendingFor_parts hpend
    exact ⟨hatt, h.keys row.key row (find?_key hrow) (isSome_iff_exists.mpr ⟨due, hdue⟩)⟩
  | mark member msg instant =>
    cases hupd
    exact ⟨Nat.succ_pos 4, msg, rfl⟩
  | requeue member held now =>
    cases hupd
    refine ⟨?_, held.msg, rfl⟩
    simp only [requeuePending]
    split
    · decide
    · omega
  | release member held | complete member held | restore member held =>
    cases hupd
    exact ⟨hatt, held.msg, rfl⟩
  | rearm member msg nextDue now =>
    cases hupd
    exact ⟨hatt, msg, rfl⟩

theorem MarksSound.nudge (h : MarksSound db) (op : NudgeOp) : MarksSound (op.apply codec db) := by
  constructor
  · intro key row hrow
    obtain ⟨stored, hst, rfl | ⟨update, hupd, rfl, -, rfl⟩⟩ := NudgeOp.find?_apply hrow
    · exact h.attempts key row hst
    · exact (NudgeOp.update_sound h hupd hst).1
  · intro key row hrow hmark
    obtain ⟨stored, hst, rfl | ⟨update, hupd, rfl, -, rfl⟩⟩ := NudgeOp.find?_apply hrow
    · exact h.keys key row hst hmark
    · obtain ⟨id, hid⟩ := (NudgeOp.update_sound h hupd hst).2
      refine ⟨id, ?_⟩
      rw [← hid, ← key_of_find? hst]
      rfl

theorem MarksSound.step (h : MarksSound db) (step : QueueStep) : MarksSound (step.apply codec world db) := by
  cases step with
  | nudge op => exact h.nudge op
  | life step => exact h.of_path (step.path db)

theorem queueRun_marksSound (codec : CronCodec) (world : World) (steps : List QueueStep) :
    MarksSound (queueRun codec world steps .empty) :=
  queueRun_keeps (fun step _ _ h => h.step step) marksSound_empty

end Sound

section Leases

variable {codec : CronCodec} {world : World} {key : MailKey} {db db' : Db}
  {member : MemberKey} {now : IsoTimestamp} {claim : NudgeClaim} {row : MessageStateRow}

/-- A queued write marks the message read. -/
def QueuedWrite.readsKey (queued : QueuedWrite) (key : MailKey) : Prop :=
  match queued.op with
  | .applyReadDisplayState mailbox messageIds _ _ => mailbox.team = key.1 ∧ mailbox.agent = key.2.1 ∧
    key.2.2 ∈ messageIds
  | _ => False

/-- A requeue, a release, a restore, a re-arm or a mark of the message. -/
def NudgeOp.rearms (op : NudgeOp) (key : MailKey) : Prop :=
  match op with
  | .mark member msg _ => member.mailKey msg = key
  | .requeue member held _ => member.mailKey held.msg = key
  | .release member held _ => member.mailKey held.msg = key
  | .rearm member msg _ _ => member.mailKey msg = key
  | .restore member held _ => member.mailKey held.msg = key
  | .claim _ _ => False
  | .complete _ _ _ => False

/-- A step that may make the message due earlier. -/
def QueueStep.rearms (step : QueueStep) (key : MailKey) : Prop :=
  match step with
  | .life step => ∃ queued ∈ step.writes, queued.readsKey key
  | .nudge op => op.rearms key

def NotDueBefore (key : MailKey) (instant : IsoTimestamp) (db : Db) : Prop :=
  ∀ row due, db.messageStates.find? key = some row → row.nudgePendingAt = some due → instant.nanos ≤ due.nanos

/-- Every act but a read of the message. -/
def withoutRead (key : MailKey) : MailGuard := fun act _ => act ≠ .read key

theorem withoutRead_answers : (withoutRead key).Answers where
  notice _ _ _ _ _ := MailAct.noConfusion
  acknowledge _ _ _ := MailAct.noConfusion
  decompose _ _ := MailAct.noConfusion
  acknowledged _ _ _ _ _ := MailAct.noConfusion

theorem withoutRead_admits : (withoutRead key).Admits where
  store _ _ _ := MailAct.noConfusion
  restate _ _ := MailAct.noConfusion
  delete _ _ := MailAct.noConfusion
  reopen _ := MailAct.noConfusion

theorem QueuedWrite.reads_withoutRead {queued : QueuedWrite} (h : ¬ queued.readsKey key) :
    queued.Reads (withoutRead key) := by
  rw [QueuedWrite.readsKey] at h
  rw [QueuedWrite.Reads]
  split
  · next mailbox messageIds watermark provenance hop =>
    intro id hid db hread
    rw [hop] at h
    obtain rfl := MailAct.read.inj hread
    exact h ⟨rfl, rfl, hid⟩
  · trivial

theorem NotDueBefore.life {step : LifeStep} (h : NotDueBefore key instant db)
    (hquiet : ¬ ∃ queued ∈ step.writes, queued.readsKey key) : NotDueBefore key instant (step.apply world db) := by
  intro row due hrow hdue
  have hreads : ∀ queued ∈ step.writes, queued.Reads (withoutRead key) :=
    fun queued hq => QueuedWrite.reads_withoutRead (fun hread => hquiet ⟨queued, hq, hread⟩)
  have hpath := (withoutRead_answers).step_path hreads
    (step.meets_of_admits (withoutRead_admits) db : step.Meets world (withoutRead key) db)
  have hkept : MarkerKept False (db.messageStates.find? key) row :=
    hpath.markerKept (fun _ hguard => hguard rfl) row hrow
  cases hkept with
  | cleared hmark hatt =>
    rw [hmark] at hdue
    cases hdue
  | kept stored hst hatt hmark =>
    rcases hmark with hnone | hsame | ⟨hfalse, -⟩
    · rw [hnone] at hdue
      cases hdue
    · exact h stored due hst (hsame ▸ hdue)
    · exact hfalse.elim

theorem le_nextReminderDue (now : IsoTimestamp) : now.nanos ≤ (nextReminderDue now).nanos := by
  have heq : (nextReminderDue now).nanos = now.nanos + 60000 * 1000000 := rfl
  omega

theorem NotDueBefore.nudge {op : NudgeOp} (h : NotDueBefore key instant db) (hquiet : ¬ op.rearms key) :
    NotDueBefore key instant (op.apply codec db) := by
  intro row due hrow hdue
  obtain ⟨stored, hst, rfl | ⟨update, hupd, rfl, hmatch, rfl⟩⟩ := NudgeOp.find?_apply hrow
  · exact h row due hst hdue
  cases op with
  | claim member now =>
    obtain ⟨taken, msg, hnext, -, rfl⟩ := NudgeOp.update_claim hupd
    obtain ⟨htaken, hpend, -⟩ := nextPending_eq_some hnext
    obtain ⟨-, ⟨first, hfirst, hle⟩, -⟩ := MessageStateRow.pendingFor_parts hpend
    have hbefore := h taken first (find?_key htaken) hfirst
    obtain rfl : nextReminderDue now = due := some.inj hdue
    have hlater := le_nextReminderDue now
    omega
  | complete member held now =>
    cases hupd
    cases hdue
  | mark | requeue | release | rearm | restore =>
    cases hupd
    exact absurd rfl hquiet

theorem NotDueBefore.step {step : QueueStep} (h : NotDueBefore key instant db) (hquiet : ¬ step.rearms key) :
    NotDueBefore key instant (step.apply codec world db) := by
  cases step with
  | life step => exact h.life hquiet
  | nudge op => exact h.nudge hquiet

theorem MarksSound.claimed (h : MarksSound db) (hclaim : claimNextPending member codec now db = .ok (some claim, db')) :
    ∃ row, nextPending member now db = some row ∧ row.key = member.mailKey claim.msg ∧
      row.nudgeAttempts = claim.attempt ∧ db' = (leasePending row now).apply db := by
  obtain ⟨row, hnext, hmsg, hattempt, hlease⟩ := claimNextPending_eq_some.mp hclaim
  obtain ⟨hrow, hpend, -⟩ := nextPending_eq_some hnext
  obtain ⟨hof, ⟨due, hdue, -⟩, -⟩ := MessageStateRow.pendingFor_parts hpend
  obtain ⟨id, hid⟩ := h.keys row.key row (find?_key hrow) (isSome_iff_exists.mpr ⟨due, hdue⟩)
  rw [hid, MessageKey.asAtmMessageId_fromAtmMessageId] at hmsg
  cases hmsg
  exact ⟨row, hnext, MessageStateRow.mailKey_of_isOf hof hid, hattempt, hlease⟩

/-- With sound marks a claim does not fail: it takes the first of the messages that are marked, due and open, or there
is none. -/
theorem MarksSound.claims (h : MarksSound db) (codec : CronCodec) (member : MemberKey) (now : IsoTimestamp) :
    (claimNextPending member codec now db = .ok (none, db) ∧
      ∀ row ∈ db.messageStates.rows, row.pendingFor member now = false) ∨
    ∃ row ∈ db.messageStates.rows, ∃ claim : NudgeClaim, row.key = member.mailKey claim.msg ∧
      claimNextPending member codec now db = .ok (some claim, (leasePending row now).apply db) ∧
      row.pendingFor member now = true ∧ ∀ other ∈ db.messageStates.rows, other.pendingFor member now = true →
        row.messageKey.val ≤ other.messageKey.val := by
  have hfew : ∀ row ∈ db.messageStates.rows, row.nudgeAttempts < maxNudgeAttempts :=
    fun row hrow => h.attempts row.key row (find?_key hrow)
  cases hnext : nextPending member now db with
  | none =>
    refine .inl ⟨?_, fun row hrow => nextPending_eq_none hnext row hrow (hfew row hrow)⟩
    rw [claimNextPending, hnext]
  | some row =>
    obtain ⟨hrow, hpend, -, hfirst⟩ := nextPending_eq_some hnext
    obtain ⟨hof, ⟨due, hdue, -⟩, -⟩ := MessageStateRow.pendingFor_parts hpend
    obtain ⟨id, hid⟩ := h.keys row.key row (find?_key hrow) (isSome_iff_exists.mpr ⟨due, hdue⟩)
    refine .inr ⟨row, hrow, ⟨id, row.nudgeAttempts⟩, MessageStateRow.mailKey_of_isOf hof hid, ?_, hpend,
      fun other hother hopen => hfirst other hother hopen (hfew other hother)⟩
    rw [claimNextPending_eq_some]
    refine ⟨row, hnext, ?_, rfl, rfl⟩
    rw [hid, MessageKey.asAtmMessageId_fromAtmMessageId]

theorem leasePending_notDueBefore (now : IsoTimestamp) (hrow : row ∈ db.messageStates.rows) :
    NotDueBefore row.key (nextReminderDue now) ((leasePending row now).apply db) := by
  intro leased due hleased hdue
  rw [NudgeUpdate.find?_apply, find?_key hrow] at hleased
  cases hleased
  rw [NudgeUpdate.onRow, if_pos ⟨rfl, rfl⟩] at hdue
  exact (some.inj hdue ▸ le_refl _)

/-- A message that was claimed is claimed again only when the lease is over. -/
theorem MarksSound.leased {other : MemberKey} {later : IsoTimestamp} {again : NudgeClaim} {db'' : Db}
    {between : List QueueStep} (h : MarksSound db)
    (hclaim : claimNextPending member codec now db = .ok (some claim, db'))
    (hquiet : ∀ step ∈ between, ¬ step.rearms (member.mailKey claim.msg))
    (hagain : claimNextPending other codec later (queueRun codec world between db') = .ok (some again, db''))
    (hsame : other.mailKey again.msg = member.mailKey claim.msg) : (nextReminderDue now).nanos ≤ later.nanos := by
  have hs : MarksSound ((NudgeOp.claim member now).apply codec db) := h.nudge (.claim member now)
  simp only [NudgeOp.apply, hclaim] at hs
  have hs' : MarksSound (queueRun codec world between db') := queueRun_keeps (fun step _ _ h => h.step step) hs
  obtain ⟨row, hnext, hkey, -, rfl⟩ := h.claimed hclaim
  have hleased := leasePending_notDueBefore now (nextPending_eq_some hnext).1
  rw [hkey] at hleased
  have hstill : NotDueBefore (member.mailKey claim.msg) (nextReminderDue now)
      (queueRun codec world between ((leasePending row now).apply db)) :=
    queueRun_keeps (fun step hstep _ h => h.step (hquiet step hstep)) hleased
  obtain ⟨taken, htaken, htakenKey, -, -⟩ := hs'.claimed hagain
  obtain ⟨hmem, hpend, -⟩ := nextPending_eq_some htaken
  obtain ⟨-, ⟨due, hdue, hle⟩, -⟩ := MessageStateRow.pendingFor_parts hpend
  have hfind := find?_key hmem
  rw [htakenKey, hsame] at hfind
  exact le_trans (hstill taken due hfind hdue) hle

/-- A message that is gone, or read and owing no acknowledgement. -/
def ClosedAt (key : MailKey) (db : Db) : Prop := ∀ row, db.messageStates.find? key = some row → row.isOpen = false

theorem NudgeUpdate.find?_of_closed (hcl : ClosedAt key db)
    (hopen : ∀ row, update.matching row = true → row.isOpen = true) :
    (update.apply db).messageStates.find? key = db.messageStates.find? key := by
  rw [NudgeUpdate.find?_apply]
  cases hst : db.messageStates.find? key with
  | none => rfl
  | some row =>
    refine congrArg some (if_neg ?_)
    rintro ⟨-, hmatch⟩
    have hrow := hopen row hmatch
    rw [hcl row hst] at hrow
    cases hrow

theorem NudgeClaim.isOpen_of_holds {held : NudgeClaim} (h : held.holds row = true) : row.isOpen = true := by
  simp only [NudgeClaim.holds, Bool.and_eq_true] at h
  exact h.2

/-- In every state that a run from an empty database reaches: after a claim no other one takes the same message within
sixty seconds, unless the message was requeued, released, restored, re-armed, marked or read in between; a claim takes
the first of the messages that are marked, due and open; and a message that is not open is not claimed, and neither a
requeue nor a release, a re-arm or a restore gives it a new due time. The clocks of the callers need not agree. -/
theorem nudge_claims_leased (codec : CronCodec) (world : World) (steps : List QueueStep) :
    (∀ member now claim db',
      claimNextPending member codec now (queueRun codec world steps .empty) = .ok (some claim, db') →
      ∀ between, (∀ step ∈ between, ¬ step.rearms (member.mailKey claim.msg)) → ∀ other later again db'',
          claimNextPending other codec later (queueRun codec world between db') = .ok (some again, db'') →
          other.mailKey again.msg = member.mailKey claim.msg → (now.addMillis 60000).nanos ≤ later.nanos) ∧
    (∀ member now, (claimNextPending member codec now (queueRun codec world steps .empty) =
          .ok (none, queueRun codec world steps .empty) ∧
        ∀ row ∈ (queueRun codec world steps .empty).messageStates.rows, row.pendingFor member now = false) ∨
      ∃ row ∈ (queueRun codec world steps .empty).messageStates.rows, ∃ claim : NudgeClaim,
        row.key = member.mailKey claim.msg ∧
        claimNextPending member codec now (queueRun codec world steps .empty) =
          .ok (some claim, (leasePending row now).apply (queueRun codec world steps .empty)) ∧
        row.pendingFor member now = true ∧
        ∀ other ∈ (queueRun codec world steps .empty).messageStates.rows, other.pendingFor member now = true →
          row.messageKey.val ≤ other.messageKey.val) ∧
    (∀ key, ClosedAt key (queueRun codec world steps .empty) →
      (∀ member now claim db', claimNextPending member codec now (queueRun codec world steps .empty) =
        .ok (some claim, db') → member.mailKey claim.msg ≠ key) ∧ ∀ member held msg nextDue now,
        ∀ update ∈ [requeuePending member held now, releasePending member held now,
          rearmPendingAfterHandoff member msg nextDue now, restorePendingAfterFailedTerminalHandoff member held now],
          (update.apply (queueRun codec world steps .empty)).messageStates.find? key =
            (queueRun codec world steps .empty).messageStates.find? key) := by
  have hsound := queueRun_marksSound codec world steps
  refine ⟨?_, hsound.claims codec, fun key hclosed => ⟨?_, ?_⟩⟩
  · intro member now claim db' hclaim between hquiet other later again db'' hagain hsame
    exact hsound.leased hclaim hquiet hagain hsame
  · rintro member now claim db' hclaim rfl
    obtain ⟨row, hnext, hkey, -, -⟩ := hsound.claimed hclaim
    obtain ⟨hmem, hpending, -⟩ := nextPending_eq_some hnext
    have hopen := (MessageStateRow.pendingFor_parts hpending).2.2
    rw [hclosed row (hkey ▸ find?_key hmem)] at hopen
    cases hopen
  · intro member held msg nextDue now update hupdate
    refine NudgeUpdate.find?_of_closed hclosed (fun row hmatching => ?_)
    simp only [mem_cons, not_mem_nil, or_false] at hupdate
    rcases hupdate with rfl | rfl | rfl | rfl
    · exact NudgeClaim.isOpen_of_holds hmatching
    · exact NudgeClaim.isOpen_of_holds hmatching
    · exact hmatching
    · simp only [restorePendingAfterFailedTerminalHandoff, Bool.and_eq_true] at hmatching
      exact hmatching.2

end Leases

end AtmCore
