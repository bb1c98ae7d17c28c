import AtmCore.CronApplied
import AtmCore.OutboxRuns

/-! Handovers. Every commit of the engine hands to the delivery ports what was ready for its generation when it began,
and then what it committed. Nothing that has left the pending state is handed over, as long as no other writer records
a receipt of the generation while the commit is under way: the engine does not look at a row again before it
sends it. -/

namespace AtmCore

open Rows List

/-- An intent that is handed to a delivery port, and the store at that moment. -/
structure Handover where
  intent : CronDeliveryIntent
  store : Db

section Engine

variable {α : Type} (world : World) (ports : CronPorts α) (schedule : CronSchedule)

def handovers : List CronDeliveryIntent → Db → List Handover
  | [], _ => []
  | intent :: intents, db =>
    (if sendable schedule intent then [⟨intent, db⟩] else []) ++
      handovers intents (deliverIntent world ports schedule intent db)

def commitHandovers (n : Nat) (transition : CronRunTransition) (outputs : List CronModuleOutput) (db : Db) :
    List Handover :=
  let pending := pendingIntents schedule db.cronIntents
  let db := run world (ports.meanwhile n) db
  match commitTransition ⟨schedule.id, schedule.generation, ports.clock n, transition, outputs⟩ (ports.fresh n) db with
  | .ok (.applied committed, written) => handovers world ports schedule (pending ++ committed) written
  | _ => []

/-- The loop makes the deliveries of its handovers, each from the store that it was handed over in. -/
theorem foldl_deliverIntent (intents : List CronDeliveryIntent) (db : Db) :
    intents.foldl (fun db intent => deliverIntent world ports schedule intent db) db =
      (handovers world ports schedule intents db).foldl
        (fun _ handover => deliverIntent world ports schedule handover.intent handover.store) db := by
  induction intents generalizing db with
  | nil => rfl
  | cons intent intents ih =>
    rw [foldl_cons, ih, handovers, foldl_append]
    split
    · rfl
    · next hskip => rw [deliverIntent, if_neg hskip, foldl_nil]

/-- The deliveries of a commit that is applied are those of its handovers. -/
theorem engineCommit_handovers {n : Nat} {transition : CronRunTransition} {outputs : List CronModuleOutput}
    {db written : Db} {committed : List CronDeliveryIntent}
    (h : commitTransition ⟨schedule.id, schedule.generation, ports.clock n, transition, outputs⟩ (ports.fresh n)
      (run world (ports.meanwhile n) db) = .ok (.applied committed, written)) :
    engineCommit world ports schedule n transition outputs db =
      (.ok true, (commitHandovers world ports schedule n transition outputs db).foldl
        (fun _ handover => deliverIntent world ports schedule handover.intent handover.store) written) := by
  simp only [engineCommit, commitHandovers, h, foldl_deliverIntent]

end Engine

/-- The step records a receipt of the generation of a run. -/
def StoreOp.receiptFor (schedule : CronSchedule) : StoreOp → Bool
  | .cron (.markDelivered id generation _ _ _) =>
    decide (id = schedule.id) && decide (generation = schedule.generation.get)
  | _ => false

/-- No other writer records a receipt of the generation while a commit of it is under way. -/
structure CronPorts.Undisturbed {α : Type} (ports : CronPorts α) (schedule : CronSchedule) : Prop where
  meanwhile : ∀ n, ∀ op ∈ ports.meanwhile n, op.receiptFor schedule = false
  deliver : ∀ intent, ∀ op ∈ (ports.deliver intent).2, op.receiptFor schedule = false

/-- The intents of a list have keys of their own. -/
def Keyed (intents : List CronDeliveryIntent) : Prop := intents.Pairwise (fun a b => sameDelivery a b = false)

variable {a b : CronDeliveryIntent}

theorem sameDelivery_iff : sameDelivery a b = true ↔ a.scheduleId = b.scheduleId ∧ a.generation = b.generation ∧
      a.transitionSeq = b.transitionSeq ∧ a.outputIndex = b.outputIndex := by
  simp [sameDelivery, and_assoc]

theorem sameDelivery_symm (h : sameDelivery a b = false) : sameDelivery b a = false := by
  rw [Bool.eq_false_iff] at h ⊢
  intro hba
  obtain ⟨hid, hgen, hseq, hidx⟩ := sameDelivery_iff.mp hba
  exact h (sameDelivery_iff.mpr ⟨hid.symm, hgen.symm, hseq.symm, hidx.symm⟩)

/-- The unique index of the outbox. -/
theorem persistIntents_keyed {intents : List CronDeliveryIntent} {stored stored' : List CronIntentRow}
    (h : persistIntents intents stored = .ok stored') (hkey : Keyed (stored.map CronIntentRow.intent)) :
    Keyed (stored'.map CronIntentRow.intent) := by
  induction intents generalizing stored with
  | nil =>
    cases h
    exact hkey
  | cons intent intents ih =>
    rw [persistIntents] at h
    split at h
    · cases h
    next hfree =>
    refine ih h ?_
    rw [map_append]
    refine pairwise_append.mpr ⟨hkey, pairwise_singleton _ _, ?_⟩
    intro a ha b hb
    obtain ⟨row, hrow, rfl⟩ := List.mem_map.mp ha
    have hb' : b = intent := by simpa using hb
    rw [Bool.eq_false_iff]
    intro hsame
    exact hfree (List.any_eq_true.mpr ⟨row, hrow, hb' ▸ hsame⟩)

variable {db : Db} {intents : List CronIntentRow} {row : CronIntentRow}

theorem StoreOp.apply_keyed (world : World) (op : StoreOp) (h : Keyed (db.cronIntents.map CronIntentRow.intent)) :
    Keyed ((op.apply world db).cronIntents.map CronIntentRow.intent) := by
  refine op.apply_outbox (P := fun intents => Keyed (intents.map CronIntentRow.intent)) world h ?_ ?_
  · intro write fresh row lifecycle mails db' _ hrecords
    obtain ⟨events, stored, -, hst, rfl⟩ := hrecords.stored
    exact persistIntents_keyed hst h
  · intro id generation seq outputIndex receipt _
    rw [markDelivered_intents]
    exact h

theorem run_keyed (world : World) (ops : List StoreOp) (h : Keyed (db.cronIntents.map CronIntentRow.intent)) :
    Keyed ((run world ops db).cronIntents.map CronIntentRow.intent) := by
  induction ops generalizing db with
  | nil => exact h
  | cons op ops ih => exact ih (op.apply_keyed world h)

/-- The intent is in the outbox and pending. -/
def PendingAt (intent : CronDeliveryIntent) (intents : List CronIntentRow) : Prop :=
  ∃ row ∈ intents, row.intent = intent ∧ row.state = .pending

def CronSchedule.Owns (schedule : CronSchedule) (intent : CronDeliveryIntent) : Prop :=
  intent.scheduleId = schedule.id ∧ intent.generation = schedule.generation.get

theorem markDelivered_pendingAt {id generation seq : Nat} {outputIndex : Option Nat} {receipt : DeliveryReceipt}
    {intent : CronDeliveryIntent} (h : PendingAt intent intents)
    (hother : ¬ (intent.scheduleId = id ∧ intent.generation = generation ∧ intent.transitionSeq = seq ∧
      intent.outputIndex = outputIndex)) :
    PendingAt intent (markDelivered id generation seq outputIndex receipt intents) := by
  obtain ⟨row, hrow, rfl, hpend⟩ := h
  refine ⟨row, List.mem_map.mpr ⟨row, hrow, if_neg ?_⟩, rfl, hpend⟩
  rintro ⟨hid, hgen, hseq, hidx, -⟩
  exact hother ⟨hid, hgen, hseq, hidx⟩

variable {write : CronTransitionWrite} {fresh : Nat → AtmMessageId} {written : Db}

section Undisturbed

variable {world : World} {schedule : CronSchedule} {intent : CronDeliveryIntent}

theorem StoreOp.apply_pendingAt {op : StoreOp} (hop : op.receiptFor schedule = false)
    (howns : schedule.Owns intent) (h : PendingAt intent db.cronIntents) :
    PendingAt intent (op.apply world db).cronIntents := by
  refine op.apply_outbox world h ?_ ?_
  · intro write fresh row lifecycle mails db' _ hrecords
    obtain ⟨row, hrow, hint, hpend⟩ := h
    rw [hrecords.tables.2.1]
    exact ⟨row, mem_append_left _ hrow, hint, hpend⟩
  · intro id generation seq outputIndex receipt hmark
    subst hmark
    refine markDelivered_pendingAt h ?_
    rintro ⟨hid, hgen, -, -⟩
    rw [howns.1] at hid
    rw [howns.2] at hgen
    simp [StoreOp.receiptFor, hid, hgen] at hop

theorem run_pendingAt {ops : List StoreOp} (hops : ∀ op ∈ ops, op.receiptFor schedule = false)
    (howns : schedule.Owns intent) (h : PendingAt intent db.cronIntents) :
    PendingAt intent (run world ops db).cronIntents := by
  induction ops generalizing db with
  | nil => exact h
  | cons op ops ih =>
    refine ih (fun op' hop' => hops op' (mem_cons_of_mem op hop')) ?_
    exact StoreOp.apply_pendingAt (hops op mem_cons_self) howns h

variable {α : Type} {ports : CronPorts α}

/-- A delivery settles its own intent and no other of the generation. -/
theorem deliverIntent_pendingAt (hports : ports.Undisturbed schedule) (howns : schedule.Owns intent)
    {sent : CronDeliveryIntent} (hother : sameDelivery sent intent = false) (h : PendingAt intent db.cronIntents) :
    PendingAt intent (deliverIntent world ports schedule sent db).cronIntents := by
  rw [deliverIntent]
  split
  swap
  · exact h
  have hwr : PendingAt intent (run world (ports.deliver sent).2 db).cronIntents :=
    run_pendingAt (hports.deliver sent) howns h
  dsimp only
  split
  · exact hwr
  · refine markDelivered_pendingAt hwr ?_
    rintro ⟨hid, hgen, hseq, hidx⟩
    rw [Bool.eq_false_iff] at hother
    exact hother (sameDelivery_iff.mpr ⟨hid.symm, hgen.symm, hseq.symm, hidx.symm⟩)

/-- What is handed over from a list of pending intents with keys of their own is pending when it is. -/
theorem handovers_pendingAt (hports : ports.Undisturbed schedule) {intents : List CronDeliveryIntent}
    (howns : ∀ intent ∈ intents, schedule.Owns intent) (hkey : Keyed intents)
    (h : ∀ intent ∈ intents, PendingAt intent db.cronIntents) :
    ∀ handover ∈ handovers world ports schedule intents db, PendingAt handover.intent handover.store.cronIntents := by
  induction intents generalizing db with
  | nil =>
    intro handover hhandover
    rw [handovers] at hhandover
    cases hhandover
  | cons intent intents ih =>
    intro handover hhandover
    obtain ⟨hfirst, hrest⟩ := pairwise_cons.mp hkey
    rw [handovers] at hhandover
    rcases mem_append.mp hhandover with hhandover | hhandover
    · split at hhandover
      · rw [mem_singleton.mp hhandover]
        exact h intent mem_cons_self
      · cases hhandover
    · have hlater : ∀ other ∈ intents, schedule.Owns other :=
        fun other hother => howns other (mem_cons_of_mem intent hother)
      have hnext : ∀ other ∈ intents, PendingAt other (deliverIntent world ports schedule intent db).cronIntents := by
        intro other hother
        have hpend := h other (mem_cons_of_mem intent hother)
        exact deliverIntent_pendingAt hports (hlater other hother) (hfirst other hother) hpend
      exact ih hlater hrest hnext handover hhandover

theorem mem_pendingIntents (h : intent ∈ pendingIntents schedule intents) :
    PendingAt intent intents ∧ schedule.Owns intent := by
  rw [pendingIntents] at h
  obtain ⟨row, hrow, rfl⟩ := List.mem_map.mp h
  have hmatch := of_mem_filter hrow
  simp only [Bool.and_eq_true, decide_eq_true_eq] at hmatch
  obtain ⟨⟨hpend, hid⟩, hgen⟩ := hmatch
  exact ⟨⟨row, (mem_of_mem_pendingDeliveries (mem_of_mem_filter hrow)).1, rfl, hpend⟩, hid, hgen⟩

theorem pendingIntents_keyed (h : Keyed (intents.map CronIntentRow.intent)) :
    Keyed (pendingIntents schedule intents) := by
  have hrows : intents.Pairwise (fun a b => sameDelivery a.intent b.intent = false) := pairwise_map.mp h
  rw [pendingIntents, pendingDeliveries]
  refine pairwise_map.mpr (List.Pairwise.filter _ (List.Pairwise.take ?_))
  exact (mergeSort_perm _ deliveryOrder).symm.pairwise (hrows.filter _) (fun h => sameDelivery_symm h)

theorem commitTransition_applied {committed : List CronDeliveryIntent}
    (h : commitTransition write fresh db = .ok (.applied committed, written)) :
    written.cronIntents = db.cronIntents ++ committed.map (fun intent => ⟨intent, .pending, none, none⟩) ∧
      ∀ intent ∈ committed, intent.scheduleId = write.id ∧ intent.generation = write.generation.get := by
  cases commitTransition_eq_ok_iff.mp h with
  | skipped hskip => simp
  | applied hskip hid hrow hrecords =>
    refine ⟨hrecords.tables.2.1, fun intent hint => ?_⟩
    have howes := hrecords.owes intent hint
    exact ⟨howes.schedule, howes.generation⟩

theorem commitTransition_keyed (world : World)
    {result : CronCommitResult} (h : commitTransition write fresh db = .ok (result, written))
    (hkey : Keyed (db.cronIntents.map CronIntentRow.intent)) :
    Keyed (written.cronIntents.map CronIntentRow.intent) := by
  have hreached := (StoreOp.cron (.commit write fresh)).apply_keyed world hkey
  simp only [StoreOp.apply, CronOp.apply, h] at hreached
  exact hreached

/-- A commit hands over what is pending, if it is not disturbed. -/
theorem commitHandovers_pendingAt (hports : ports.Undisturbed schedule) (n : Nat)
    (transition : CronRunTransition) (outputs : List CronModuleOutput)
    (hkey : Keyed (db.cronIntents.map CronIntentRow.intent)) :
    ∀ handover ∈ commitHandovers world ports schedule n transition outputs db,
      PendingAt handover.intent handover.store.cronIntents := by
  rw [commitHandovers]
  have hmean : ∀ intent ∈ pendingIntents schedule db.cronIntents,
      PendingAt intent (run world (ports.meanwhile n) db).cronIntents := fun intent hint =>
    run_pendingAt (hports.meanwhile n) (mem_pendingIntents hint).2 (mem_pendingIntents hint).1
  split
  swap
  · simp
  next committed written hcommit =>
  obtain ⟨hwr, howned⟩ := commitTransition_applied hcommit
  -- the pending rows are still there, and the new ones come after them under keys of their own
  have hkey' : Keyed (written.cronIntents.map CronIntentRow.intent) :=
    commitTransition_keyed world hcommit (run_keyed world (ports.meanwhile n) hkey)
  have hmap : written.cronIntents.map CronIntentRow.intent =
      (run world (ports.meanwhile n) db).cronIntents.map CronIntentRow.intent ++ committed := by
    rw [hwr, map_append, List.map_map]
    exact congrArg _ (List.map_id' committed)
  rw [hmap] at hkey'
  obtain ⟨-, hcommitted, hcross⟩ := pairwise_append.mp hkey'
  refine handovers_pendingAt hports ?_ ?_ ?_
  · intro intent hint
    rcases mem_append.mp hint with hint | hint
    · exact (mem_pendingIntents hint).2
    · exact howned intent hint
  · refine pairwise_append.mpr ⟨pendingIntents_keyed hkey, hcommitted, fun a ha b hb => hcross a ?_ b hb⟩
    obtain ⟨row, hrow, hint, -⟩ := hmean a ha
    exact hint ▸ List.mem_map_of_mem hrow
  · intro intent hint
    rw [hwr]
    rcases mem_append.mp hint with hint | hint
    · obtain ⟨row, hrow, hrow'⟩ := hmean intent hint
      exact ⟨row, mem_append_left _ hrow, hrow'⟩
    · exact ⟨⟨intent, .pending, none, none⟩, mem_append_right _ (List.mem_map_of_mem hint), rfl, rfl⟩

end Undisturbed

theorem sameDelivery_refl (intent : CronDeliveryIntent) : sameDelivery intent intent = true :=
  sameDelivery_iff.mpr ⟨rfl, rfl, rfl, rfl⟩

theorem Keyed.row_eq (h : Keyed (intents.map CronIntentRow.intent)) {row' : CronIntentRow}
    (hrow : row ∈ intents) (hrow' : row' ∈ intents) (hsame : sameDelivery row'.intent row.intent = true) :
    row' = row := by
  by_contra hne
  have : Std.Symm (fun a b : CronIntentRow => sameDelivery a.intent b.intent = false) := ⟨fun _ _ => sameDelivery_symm⟩
  have hother := (pairwise_map.mp h).forall hrow' hrow hne
  rw [hsame] at hother
  cases hother

/-- What the pending query says of an intent by the state of its row. -/
def PendingCronDelivery.Offers (delivery : PendingCronDelivery) (row : CronIntentRow) : Prop :=
  (row.state = .pending ∧ delivery = .readyToSend row.intent) ∨
    row.state = .unknown ∧ ∃ cause, delivery = .reconciliationRequired row.intent cause

theorem CronIntentRow.delivery_offers (h : row.Readable) (hstate : row.state = .pending ∨ row.state = .unknown) :
    row.delivery.Offers row := by
  rcases hstate with hpend | hunknown
  · refine .inl ⟨hpend, ?_⟩
    rw [CronIntentRow.delivery, hpend]
  · obtain ⟨cause, hcause, -⟩ := h.cause hunknown
    refine .inr ⟨hunknown, cause, ?_⟩
    rw [CronIntentRow.delivery, hunknown, hcause]

theorem PendingCronDelivery.Offers.intent_eq {delivery : PendingCronDelivery} (h : delivery.Offers row) :
    delivery.intent = row.intent := by
  rcases h with ⟨-, rfl⟩ | ⟨-, cause, rfl⟩ <;> rfl

/-- In every run of the store from an empty outbox: a transition has at most one lifecycle notice, and its mail is
numbered from 0; a row leaves the pending state once and then stays as it is; the pending query returns what was
committed, message id included, ready to be sent while it is pending, in need of reconciliation when its handoff is
unknown, and nothing else; and a commit of the engine that no other receipt of its generation disturbs hands over only
what is pending. -/
theorem outbox_sound (codec : CronCodec) (world : World) (ops : List StoreOp)
    (htyped : ∀ op ∈ ops, op.Typed) (db : Db) :
    (∀ id generation seq, Numbered (intentsOf ((run world ops db.withoutCron).cronIntents.map CronIntentRow.intent)
      id generation seq)) ∧ (∀ before after, ops = before ++ after →
      Grown CronIntentRow.Settles (run world before db.withoutCron).cronIntents
        (run world ops db.withoutCron).cronIntents) ∧
    (∀ limit, ∃ deliveries, pendingQuery codec limit (run world ops db.withoutCron).cronIntents = .ok deliveries ∧
      ∀ delivery ∈ deliveries, delivery.intent ∈ committed world ops db.withoutCron ∧
        ∀ row ∈ (run world ops db.withoutCron).cronIntents, row.intent = delivery.intent → delivery.Offers row) ∧
    ∀ (α : Type) (ports : CronPorts α) (schedule : CronSchedule) n transition outputs, ports.Undisturbed schedule →
      ∀ handover ∈ commitHandovers world ports schedule n transition outputs (run world ops db.withoutCron),
        PendingAt handover.intent handover.store.cronIntents := by
  have hempty : db.withoutCron.cronIntents = [] := rfl
  have hkeyed : Keyed ((run world ops db.withoutCron).cronIntents.map CronIntentRow.intent) := by
    refine run_keyed world ops ?_
    rw [hempty]
    exact List.Pairwise.nil
  have hreadable : ∀ row ∈ (run world ops db.withoutCron).cronIntents, row.Readable := by
    refine run_intentsReadable world htyped ?_
    simp [hempty]
  refine ⟨run_numbered (history_withoutCron db) ?_ world ops, ?_, fun limit => ?_, ?_⟩
  · intro id generation seq
    rw [hempty]
    exact numbered_nil
  · rintro before after rfl
    have hsplit : run world (before ++ after) db.withoutCron = run world after (run world before db.withoutCron) :=
      foldl_append
    rw [hsplit]
    exact run_settles world after _
  · refine ⟨_, pendingQuery_of_readable codec limit hreadable, fun delivery hdelivery => ?_⟩
    obtain ⟨row, hrow, rfl⟩ := List.mem_map.mp hdelivery
    obtain ⟨hmem, hstate⟩ := mem_of_mem_pendingDeliveries hrow
    have hoffers := CronIntentRow.delivery_offers (hreadable row hmem) hstate
    rw [hoffers.intent_eq]
    refine ⟨?_, fun row' hrow' hintent => ?_⟩
    swap
    · rw [hkeyed.row_eq hmem hrow' (hintent ▸ sameDelivery_refl row'.intent)]
      exact hoffers
    have hcommitted := run_commits world ops db.withoutCron
    have hmap := List.mem_map_of_mem (f := CronIntentRow.intent) hmem
    rwa [hcommitted] at hmap
  · intro α ports schedule n transition outputs hports
    exact commitHandovers_pendingAt hports n transition outputs hkeyed

/-- The part of `pending_intents` that picks what may be sent for a generation. -/
def readyFor (schedule : CronSchedule) : PendingCronDelivery → Option CronDeliveryIntent
  | .readyToSend intent =>
    if intent.scheduleId = schedule.id ∧ intent.generation = schedule.generation.get then some intent else none
  | .reconciliationRequired _ _ => none

/-- In every run the engine sends again what the query of the rows offers. -/
theorem engine_sends_offered (codec : CronCodec) (world : World) (ops : List StoreOp) (htyped : ∀ op ∈ ops, op.Typed)
    (db : Db) (schedule : CronSchedule) : let intents := (run world ops db.withoutCron).cronIntents
    (pendingQuery codec pendingLimit intents).map (List.filterMap (readyFor schedule)) =
      .ok (pendingIntents schedule intents) := by
  intro intents
  have h : ∀ row ∈ intents, row.Readable := run_intentsReadable world htyped (fun _ hrow => by cases hrow)
  rw [pendingQuery_of_readable codec pendingLimit h, pendingIntents]
  refine congrArg Except.ok ?_
  rw [filterMap_map, ← filterMap_eq_filter, map_filterMap]
  refine filterMap_congr (fun row hrow => ?_)
  obtain ⟨hmem, hpend | hunknown⟩ := mem_of_mem_pendingDeliveries hrow
  · by_cases hkey : row.intent.scheduleId = schedule.id ∧ row.intent.generation = schedule.generation.get <;>
      simp [CronIntentRow.delivery, hpend, readyFor, Option.guard, hkey]
  · obtain ⟨cause, hcause, -⟩ := (h row hmem).cause hunknown
    simp [CronIntentRow.delivery, hunknown, hcause, readyFor, Option.guard]

section Sample

/-- The number 26 digits of Crockford's alphabet stand for. -/
def ulidValue (digits : List Char) : Nat := digits.foldl (fun n digit => n * 32 + crockford.idxOf digit) 0

theorem ulidValue_ulidDigits {n k : Nat} : ulidValue (ulidDigits n k) = n % 32 ^ k := by
  induction k generalizing n with
  | zero => rw [Nat.pow_zero, Nat.mod_one]; rfl
  | succ k ih =>
    have hdigit : ∀ d, d < 32 → crockford.idxOf (crockford.getD d '0') = d := by decide
    have hstep : ulidValue (ulidDigits n (k + 1)) =
        ulidValue (ulidDigits (n / 32) k) * 32 + crockford.idxOf (crockford.getD (n % 32) '0') := by
      rw [ulidValue, ulidDigits, foldl_append]
      rfl
    rw [hstep, ih, hdigit _ (Nat.mod_lt n (by decide)), Nat.pow_succ', Nat.mod_mul]
    omega

/-- The parser of message ids, for the texts that have the form of one. -/
def parseUlid (text : String) : Except String AtmMessageId :=
  if h : ulidValue text.toList < 2 ^ 128 then .ok ⟨ulidValue text.toList, h⟩ else .error "invalid length"

theorem ulidValue_toText (id : AtmMessageId) : ulidValue id.toText.toList = id.val := by
  rw [AtmMessageId.toText, String.toList_ofList, ulidValue_ulidDigits]
  have hbd : (2 : Nat) ^ 128 ≤ 32 ^ 26 := by decide
  exact Nat.mod_eq_of_lt (Nat.lt_of_lt_of_le id.lt hbd)

theorem parseUlid_toText (id : AtmMessageId) : parseUlid id.toText = .ok id := by
  have hvalue := ulidValue_toText id
  obtain ⟨n, hn⟩ := id
  rw [parseUlid]
  simp only [hvalue, hn, dite_true]

def CronCodec.ulid : CronCodec := ⟨parseUlid, parseUlid_toText⟩

/-- A failure of the first generation of the first schedule, committed and not yet told of. -/
def sampleOutbox : List StoreOp := sampleHistory [(⟨1⟩, sampleTimeout)]

theorem sampleOutbox_typed : ∀ op ∈ sampleOutbox, op.Typed := by
  intro op hop
  rcases mem_cons.mp hop with rfl | hop
  · trivial
  · rw [mem_singleton.mp hop]
    intro event hev
    cases hev
    exact ⟨by decide +kernel, by decide +kernel⟩

def sampleRun : CronSchedule := ⟨1, sampleGeneration, .hook⟩

/-- A stop check of the generation: nobody else writes, and no delivery is accepted. -/
def sampleQuiet : CronPorts Unit where
  started := ⟨2⟩
  clock _ := ⟨2⟩
  fresh _ := sampleFresh
  meanwhile _ := []
  stopCron := .ok ⟨false, none, [], rfl, by decide⟩
  runCron := .ok .notApplicable
  dispatchCronActions _ := (.ok (), [])
  deliver _ := (none, [])

theorem sampleQuiet_undisturbed : sampleQuiet.Undisturbed sampleRun :=
  ⟨fun _ _ hop => (by cases hop), fun _ _ hop => (by cases hop)⟩

theorem sampleOutbox_sound : (∀ op ∈ sampleOutbox, op.Typed) ∧
    Numbered
      (intentsOf ((run .accepting sampleOutbox Db.empty.withoutCron).cronIntents.map CronIntentRow.intent) 1 1 1) ∧
    (∃ deliveries, pendingQuery .ulid 128 (run .accepting sampleOutbox Db.empty.withoutCron).cronIntents =
      .ok deliveries) ∧
    (commitHandovers .accepting sampleQuiet sampleRun 0 .stopCheckContinues []
      (run .accepting sampleOutbox Db.empty.withoutCron)).map (fun handover => handover.intent.transitionSeq) = [1] ∧
    ∀ handover ∈ commitHandovers .accepting sampleQuiet sampleRun 0 .stopCheckContinues []
      (run .accepting sampleOutbox Db.empty.withoutCron), PendingAt handover.intent handover.store.cronIntents := by
  have h := outbox_sound .ulid .accepting sampleOutbox sampleOutbox_typed .empty
  refine ⟨sampleOutbox_typed, h.1 1 1 1, (h.2.2.1 128).imp (fun _ h => h.1), by decide +kernel, ?_⟩
  exact h.2.2.2 Unit sampleQuiet sampleRun 0 .stopCheckContinues [] sampleQuiet_undisturbed

theorem sampleOutbox_sent : let intents := (run .accepting sampleOutbox Db.empty.withoutCron).cronIntents
    (pendingQuery .ulid pendingLimit intents).map (List.filterMap (readyFor sampleRun)) =
      .ok (pendingIntents sampleRun intents) :=
  engine_sends_offered .ulid .accepting sampleOutbox sampleOutbox_typed .empty sampleRun

/-- While a stop check of the generation is under way, another run of it finds the handoff of the notice unknown. -/
def sampleDisturbance : CronPorts Unit :=
  { sampleQuiet with meanwhile := fun _ => [.cron (.markDelivered 1 1 1 none (.unknown "handoff timed out"))] }

/-- The notice is handed over although its row says that its handoff is unknown. -/
theorem unknown_notice_handed_over :
    (commitHandovers .accepting sampleDisturbance sampleRun 0 .stopCheckContinues []
      (run .accepting sampleOutbox Db.empty.withoutCron)).map (fun handover =>
        (handover.store.cronIntents.filter (fun row => decide (row.intent = handover.intent))).map
          CronIntentRow.state) =
      [[.unknown]] := by
  decide +kernel

end Sample

end AtmCore
