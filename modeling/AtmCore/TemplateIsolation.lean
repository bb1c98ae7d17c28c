import AtmCore.MailActs
import AtmCore.MailboxIsolation

/-! Binding the message of a mailbox to its template, where other mailboxes may hold the same message key. The
statements look for the key alone: the first message of the key decides whether the binding is made at all, and the
binding is refused when the key has more than one message without a template. -/

namespace AtmCore

open Rows List Option Table

variable {world : World} {scope : MailboxScope} {key : MessageKey} {db : Db} {own first : MailRow}

/-- What the binding does after the template was registered. -/
def bindStored (message : DecomposedMessageRecord) (template : TemplateRegistrationOutcome) (db : Db) :
    Outcome (DecomposedMessageAdmissionOutcome × Db) :=
  match db.firstOf message.key with
  | none => Outcome.fail (.mailboxWrite "decomposed admission requires an existing canonical message")
  | some row =>
    match row.templateSha with
    | some existing =>
      if existing = message.templateSha then .ok (.messageAlreadyPresent, db)
      else Outcome.fail (.validation "an existing decomposed message cannot be rebound to a different template SHA")
    | none => persistDecomposedMessageColumns message db >>= fun db => .ok (.inserted template, db)

theorem executeDecomposedMessageAdmission_eq {admission : DecomposedMessageAdmission} :
    executeDecomposedMessageAdmission world admission db = Outcome.lift (admission.validate world) >>= fun _ =>
        bindStored admission.message (insertTemplateIfAbsent admission.template db).1
          (insertTemplateIfAbsent admission.template db).2 := rfl

theorem insertTemplateIfAbsent_apart {request : TemplateRegistration} :
    insertTemplateIfAbsent request (db.apart scope key) =
      ((insertTemplateIfAbsent request db).1, (insertTemplateIfAbsent request db).2.apart scope key) := by
  have htemplates : (db.apart scope key).templates = db.templates := rfl
  unfold insertTemplateIfAbsent
  rw [htemplates]
  cases db.templates.insertNew request with
  | none | some => rfl

/-- The database after the binding of the key's only message without a template. -/
def Db.boundTo (message : DecomposedMessageRecord) (row : MailRow) (db : Db) : Db :=
  { db with
    mailMessages := db.mailMessages.mapRows (decomposeRow message) (decomposeRow_key message)
    searchDocuments := syncMessageProjection db.searchDocuments row }

variable {row : MailRow} {message : DecomposedMessageRecord} {template : TemplateRegistrationOutcome}

theorem undecomposed_eq_true : undecomposed key row = true ↔ row.messageKey = key ∧ row.templateSha = none := by
  rw [undecomposed, Bool.and_eq_true, decide_eq_true_iff, isNone_iff_eq_none]

theorem persistDecomposedMessageColumns_of_first (hfirst : db.firstOf message.key = some first)
    (hunbound : first.templateSha = none) : persistDecomposedMessageColumns message db =
      if (db.mailMessages.rows.filter (undecomposed message.key)).length = 1 then
        .ok (db.boundTo message (message.apply first))
      else Outcome.fail (.mailboxWrite "decomposed admission did not update exactly one canonical message") := by
  have hkey : first.messageKey = message.key := by simpa using find?_some hfirst
  have hrow : decomposeRow message first = message.apply first := if_pos (undecomposed_eq_true.mpr ⟨hkey, hunbound⟩)
  have hf : (db.mailMessages.rows.map (decomposeRow message)).find? (fun row => decide (row.messageKey = message.key)) =
      some (message.apply first) := by
    have hpred : ((fun row : MailRow => decide (row.messageKey = message.key)) ∘ decomposeRow message) =
        fun row => decide (row.messageKey = message.key) := by
      funext row
      have hsame := congrArg (fun key : MailKey => key.2.2) (decomposeRow_key message row)
      exact congrArg (fun stored => decide (stored = message.key)) hsame
    rw [find?_map, hpred]
    exact (congrArg (Option.map (decomposeRow message)) hfirst).trans (congrArg some hrow)
  unfold persistDecomposedMessageColumns
  by_cases hone : (db.mailMessages.rows.filter (undecomposed message.key)).length = 1
  · rw [if_neg (not_not.mpr hone), if_pos hone]
    change (match (db.mailMessages.rows.map (decomposeRow message)).find? _ with
      | none => _
      | some row => _) = _
    rw [hf]
    rfl
  · rw [if_pos hone, if_neg hone]

/-- Without the other mailboxes the key has at most the mailbox's own message. -/
theorem undecomposed_apart (hown : db.mailMessages.find? (scope.mailKey key) = some own)
    (hunbound : own.templateSha = none) :
    (db.apart scope key).mailMessages.rows.filter (undecomposed key) = [own] := by
  have hrows : (db.apart scope key).mailMessages.rows.filter (undecomposed key) =
      db.mailMessages.rows.filter (fun row => decide (row.key = scope.mailKey key)) := by
    refine (List.filter_filter ..).trans (filter_congr (fun row hrow => ?_))
    rw [Bool.eq_iff_iff, Bool.and_eq_true, undecomposed_eq_true, decide_eq_true_iff]
    constructor
    · rintro ⟨⟨hkey, -⟩, hkept⟩
      rw [MailRow.keeps_of_key hkey, MailRow.within_eq_true] at hkept
      rw [MailRow.key, MailboxScope.mailKey, hkept.1, hkept.2, hkey]
    · intro hkey
      have hsame : row = own := db.mailMessages.eq_of_key_eq hrow (mem_of_find? hown)
        (hkey.trans (key_of_find? hown).symm)
      exact ⟨⟨congrArg (fun key : MailKey => key.2.2) hkey, hsame ▸ hunbound⟩, hkey ▸ scope.keeps_own⟩
  rw [hrows]
  exact filter_key hown

/-- The answer of a binding that comes upon a message. -/
def answerOf (message : DecomposedMessageRecord) (template : TemplateRegistrationOutcome) (row : MailRow) (db : Db) :
    Outcome (DecomposedMessageAdmissionOutcome × Db) :=
  match row.templateSha with
  | some existing =>
    if existing = message.templateSha then .ok (.messageAlreadyPresent, db)
    else Outcome.fail (.validation "an existing decomposed message cannot be rebound to a different template SHA")
  | none =>
    if (db.mailMessages.rows.filter (undecomposed message.key)).length = 1 then
      .ok (.inserted template, db.boundTo message (message.apply row))
    else Outcome.fail (.mailboxWrite "decomposed admission did not update exactly one canonical message")

theorem bindStored_of_first (hfirst : db.firstOf message.key = some first) :
    bindStored message template db = answerOf message template first db := by
  simp only [bindStored, hfirst, answerOf]
  cases hsha : first.templateSha with
  | some existing => rfl
  | none =>
    simp only [persistDecomposedMessageColumns_of_first hfirst hsha]
    split <;> rfl

theorem apart_boundTo (hown : db.mailMessages.find? (scope.mailKey key) = some own) :
    (db.boundTo message (message.apply own)).apart scope key =
      (db.apart scope key).boundTo message (message.apply own) := by
  have hmail : (db.mailMessages.mapRows (decomposeRow message) (decomposeRow_key message)).filterRows
      (fun row => scope.keeps key row.key) =
        (db.apart scope key).mailMessages.mapRows (decomposeRow message) (decomposeRow_key message) :=
    filterRows_mapRows _ _ (fun row => by rw [decomposeRow_key])
  have hdocs : (syncMessageProjection db.searchDocuments (message.apply own)).filterRows
      (fun row => scope.keeps key row.key) =
        syncMessageProjection (db.apart scope key).searchDocuments (message.apply own) := by
    refine filterRows_upsert _ (by intro document; rfl) (fun row row' h => by rw [h]) ?_
    change scope.keeps key own.key = true
    rw [key_of_find? hown]
    exact scope.keeps_own
  simp only [Db.boundTo, Db.apart] at hmail hdocs ⊢
  rw [hmail, hdocs]

/-- A binding of the mailbox's message that is the only one of the key without a template leaves the others. -/
theorem elsewhere_boundTo (hkey : message.key = key)
    (hown : db.mailMessages.find? (scope.mailKey key) = some own) (hunbound : own.templateSha = none)
    (hone : (db.mailMessages.rows.filter (undecomposed key)).length = 1) :
    (db.boundTo message (message.apply own)).elsewhere scope key = db.elsewhere scope key := by
  obtain ⟨only, honly⟩ := length_eq_one_iff.mp hone
  have hself : own ∈ db.mailMessages.rows.filter (undecomposed key) := mem_filter.mpr ⟨mem_of_find? hown,
    undecomposed_eq_true.mpr ⟨congrArg (fun key : MailKey => key.2.2) (key_of_find? hown), hunbound⟩⟩
  have hmail : (db.mailMessages.mapRows (decomposeRow message) (decomposeRow_key message)).rows.filter
      (fun row => !scope.keeps key row.key) = db.mailMessages.rows.filter (fun row => !scope.keeps key row.key) := by
    refine filter_mapRows _ _ (fun row => by rw [decomposeRow_key]) (fun row hmem hother => if_neg ?_)
    intro hrewritten
    rw [hkey] at hrewritten
    have hrow' : row ∈ db.mailMessages.rows.filter (undecomposed key) := mem_filter.mpr ⟨hmem, hrewritten⟩
    rw [honly, mem_singleton] at hrow' hself
    rw [hrow', ← hself, key_of_find? hown, scope.keeps_own] at hother
    cases hother
  have hdocs : (syncMessageProjection db.searchDocuments (message.apply own)).rows.filter
      (fun row => !scope.keeps key row.key) = db.searchDocuments.rows.filter (fun row => !scope.keeps key row.key) := by
    refine filter_upsert _ (by intro document; rfl) (fun row row' h => by rw [h]) ?_
    change (!scope.keeps key own.key) = false
    rw [key_of_find? hown, scope.keeps_own]
    rfl
  simp only [Db.elsewhere, Db.boundTo, hmail, hdocs]

variable {bound : String} {op : Db → Outcome (DecomposedMessageAdmissionOutcome × Db)}

section

variable (hdb : op db = answerOf message template first db)
  (hap : op (db.apart scope key) = answerOf message template own (db.apart scope key))
include hdb hap

/-- Two messages that are both bound answer alike just in case both or neither are bound to the template. -/
theorem bound_isolated_iff {ownBound : String} (hfirst : first.templateSha = some bound)
    (hown : own.templateSha = some ownBound) :
    Isolated scope key op db ↔ (bound = message.templateSha ↔ ownBound = message.templateSha) := by
  simp only [answerOf, hfirst] at hdb
  simp only [answerOf, hown] at hap
  by_cases hbd : bound = message.templateSha
  · rw [if_pos hbd] at hdb
    by_cases hownB : ownBound = message.templateSha
    · rw [if_pos hownB] at hap
      exact iff_of_true (isolated_of_ok hdb hap rfl) (iff_of_true hbd hownB)
    · rw [if_neg hownB] at hap
      refine iff_of_false (fun h => ?_) (fun h => hownB (h.mp hbd))
      have heq := h.same
      rw [hdb, hap] at heq
      cases heq
  · rw [if_neg hbd] at hdb
    by_cases hownB : ownBound = message.templateSha
    · rw [if_pos hownB] at hap
      refine iff_of_false (fun h => ?_) (fun h => hbd (h.mpr hownB))
      have heq := h.same
      rw [hdb, hap] at heq
      cases heq
    · rw [if_neg hownB] at hap
      exact iff_of_true (isolated_of_error _ hdb hap) (iff_of_false hbd hownB)

/-- The first message of the key and the mailbox's own answer differently when only one of them is bound. -/
theorem not_isolated_of_half_bound (hhalf : first.templateSha.isSome ≠ own.templateSha.isSome) :
    ¬ Isolated scope key op db := by
  intro h
  have heq := h.same
  rw [hdb, hap] at heq
  cases hfirst : first.templateSha with
  | some bound =>
    cases hown : own.templateSha with
    | some ownBound => simp [hfirst, hown] at hhalf
    | none =>
      simp only [answerOf, hfirst, hown] at heq
      split at heq <;> split at heq <;> cases heq
  | none =>
    cases hown : own.templateSha with
    | none => simp [hfirst, hown] at hhalf
    | some ownBound =>
      simp only [answerOf, hfirst, hown] at heq
      split at heq <;> split at heq <;> cases heq

end

theorem bindStored_isolated_iff (template : TemplateRegistrationOutcome) (hkey : message.key = key)
    (hown : db.mailMessages.find? (scope.mailKey key) = some own) :
    Isolated scope key (bindStored message template) db ↔ BindsApart scope key message.templateSha db := by
  subst hkey
  obtain ⟨first, hfirst, hfirstKey, hsame⟩ := exists_firstOf hown
  have hdb : bindStored message template db = answerOf message template first db := bindStored_of_first hfirst
  have hapart : bindStored message template (db.apart scope message.key) =
      answerOf message template own (db.apart scope message.key) := bindStored_of_first (firstOf_apart hown)
  have hbinds : BindsApart scope message.key message.templateSha db ↔ (first = own ∧ (own.templateSha = none →
        (db.mailMessages.rows.filter (undecomposed message.key)).length = 1)) ∨
      ∃ bound ownBound, first.templateSha = some bound ∧ own.templateSha = some ownBound ∧
        (bound = message.templateSha ↔ ownBound = message.templateSha) := by
    constructor
    · rintro ⟨first', own', hfirst', hown', h⟩
      obtain rfl := some.inj (hfirst.symm.trans hfirst')
      obtain rfl := some.inj (hown.symm.trans hown')
      exact h
    · exact fun h => ⟨first, own, hfirst, hown, h⟩
  rw [hbinds]
  cases hbd : first.templateSha with
  | some bound =>
    cases hownB : own.templateSha with
    | some ownBound =>
      rw [bound_isolated_iff hdb hapart hbd hownB]
      constructor
      · exact fun h => .inr ⟨bound, ownBound, rfl, rfl, h⟩
      · rintro (⟨rfl, -⟩ | ⟨_, _, ⟨⟩, ⟨⟩, h⟩)
        · rw [some.inj (hbd.symm.trans hownB)]
        · exact h
    | none =>
      refine iff_of_false (not_isolated_of_half_bound hdb hapart (by simp [hbd, hownB])) ?_
      rintro (⟨rfl, -⟩ | ⟨_, _, -, ⟨⟩, -⟩)
      cases hbd.symm.trans hownB
  | none =>
    cases hownB : own.templateSha with
    | some ownBound =>
      refine iff_of_false (not_isolated_of_half_bound hdb hapart (by simp [hbd, hownB])) ?_
      rintro (⟨rfl, -⟩ | ⟨_, _, ⟨⟩, -⟩)
      cases hbd.symm.trans hownB
    | none =>
      have hap : bindStored message template (db.apart scope message.key) = .ok (.inserted template,
          (db.apart scope message.key).boundTo message (message.apply own)) := by
        simp only [hapart, answerOf, hownB, undecomposed_apart hown hownB]
        rfl
      simp only [answerOf, hbd] at hdb
      by_cases hone : (db.mailMessages.rows.filter (undecomposed message.key)).length = 1
      · rw [if_pos hone] at hdb
        obtain rfl : first = own := by
          obtain ⟨only, honly⟩ := length_eq_one_iff.mp hone
          have hmem : ∀ row ∈ db.mailMessages.rows, row.messageKey = message.key → row.templateSha = none →
            row = only := by
            intro row hrow hkey hsha
            have hin := mem_filter.mpr ⟨hrow, undecomposed_eq_true.mpr ⟨hkey, hsha⟩⟩
            rw [honly] at hin
            exact mem_singleton.mp hin
          rw [hmem first (mem_of_find?_eq_some hfirst) hfirstKey hbd,
            hmem own (mem_of_find? hown) (congrArg (fun key : MailKey => key.2.2) (key_of_find? hown)) hownB]
        refine iff_of_true (isolated_of_ok hdb ?_ (elsewhere_boundTo rfl hown hownB hone)) (.inl ⟨rfl, fun _ => hone⟩)
        rw [apart_boundTo hown]
        exact hap
      · rw [if_neg hone] at hdb
        refine iff_of_false (fun h => ?_) ?_
        · have heq := h.same
          rw [hdb, hap] at heq
          cases heq
        · rintro (⟨-, h⟩ | ⟨_, _, ⟨⟩, -⟩)
          exact hone (h rfl)

variable {db' : Db}

/-- Isolation does not depend on how an answer is wrapped. -/
theorem isolated_map_iff {α β : Type} {op : Db → Outcome (α × Db)} {op' : Db → Outcome (β × Db)} {wrap : β → α}
    (hwrap : Function.Injective wrap) (hdb : op db = (op' db').map (fun result => (wrap result.1, result.2)))
    (hap : op (db.apart scope key) = (op' (db'.apart scope key)).map (fun result => (wrap result.1, result.2)))
    (helse : db'.elsewhere scope key = db.elsewhere scope key) :
    Isolated scope key op db ↔ Isolated scope key op' db' := by
  have hpair : Function.Injective (fun result : β × Db => (wrap result.1, result.2)) := by
    rintro ⟨answer, written⟩ ⟨answer', written'⟩ heq
    obtain ⟨hanswer, hwr⟩ := Prod.mk.inj heq
    exact Prod.ext (hwrap hanswer) hwr
  constructor
  · intro h
    constructor
    · have heq := h.same
      rw [hdb, hap] at heq
      cases hrun : op' db' <;> cases hrun' : op' (db'.apart scope key) <;> rw [hrun, hrun'] at heq
      · exact congrArg Except.error (Except.error.inj heq)
      · cases heq
      · cases heq
      · exact congrArg Except.ok (hpair (Except.ok.inj heq))
    · intro answer written hrun
      rw [helse]
      refine h.untouched (wrap answer) written ?_
      rw [hdb, hrun]
      rfl
  · exact Isolated.map wrap hdb hap helse

theorem bindsApart_congr {sha : String} {db : Db} (h : db'.mailMessages = db.mailMessages) :
    BindsApart scope key sha db' ↔ BindsApart scope key sha db := by
  simp only [BindsApart, Db.firstOf, h]

theorem bindTemplate_isolated_iff (hown : db.mailMessages.find? (scope.mailKey key) = some own)
    {template : TemplateRegistration} :
    Isolated scope key (MailboxCall.run world scope key (.bindTemplate template message)) db ↔
      (bindingOf template message key).validate world ≠ .ok () ∨ BindsApart scope key message.templateSha db := by
  cases hval : (bindingOf template message key).validate world with
  | error error =>
    refine iff_of_true (isolated_of_error (.err error) ?_ ?_) (.inl nofun) <;>
      simp only [MailboxCall.run, executeDecomposedMessageAdmission_eq, hval, Outcome.lift, Fallible.bind_error]
  | ok _ =>
    obtain ⟨templates, documents, heq⟩ := insertTemplateIfAbsent_eq template db
    have hmail : (insertTemplateIfAbsent template db).2.mailMessages = db.mailMessages := by rw [heq]
    have hrun : ∀ db : Db, MailboxCall.run world scope key (.bindTemplate template message) db =
        (bindStored (bindingOf template message key).message (insertTemplateIfAbsent template db).1
          (insertTemplateIfAbsent template db).2).map (fun result => (.bound result.1, result.2)) := by
      intro db
      have htemplate : (bindingOf template message key).template = template := rfl
      simp only [MailboxCall.run, executeDecomposedMessageAdmission_eq, hval, Outcome.lift, Fallible.bind_ok, htemplate]
      cases bindStored (bindingOf template message key).message (insertTemplateIfAbsent template db).1
          (insertTemplateIfAbsent template db).2 with
      | error | ok => rfl
    have hap := hrun (db.apart scope key)
    rw [insertTemplateIfAbsent_apart] at hap
    have helse : (insertTemplateIfAbsent template db).2.elsewhere scope key = db.elsewhere scope key := by
      rw [heq]
      rfl
    have hinjective : Function.Injective MailboxAnswer.bound := fun _ _ heq => MailboxAnswer.bound.inj heq
    have hst := bindStored_isolated_iff (insertTemplateIfAbsent template db).1
      (show (bindingOf template message key).message.key = key from rfl) (hmail.symm ▸ hown)
    rw [isolated_map_iff hinjective (hrun db) hap helse, hst, bindsApart_congr hmail]
    exact ⟨.inr, fun h => h.resolve_left (fun hne => hne rfl)⟩

/-- A call for the message that a mailbox holds is isolated just in case it is separate: an update and a read always
are, a lookup when it comes upon the mailbox's own message, a binding when the other messages of the key do not disturb
it, and a deletion only when no other mailbox has anything under the key. -/
theorem mailbox_call_isolated_iff (world : World) (scope : MailboxScope) (key : MessageKey)
    (call : MailboxCall) (db : Db) (own : MailRow) (hown : db.mailMessages.find? (scope.mailKey key) = some own) :
    Isolated scope key (call.run world scope key) db ↔ call.Separate world scope key db := by
  cases call with
  | delete provenance => exact delete_isolated_iff
  | load => exact load_isolated_iff hown
  | readerLoad => exact readerLoad_isolated_iff hown
  | update ambient envelope provenance => exact iff_of_true (update_isolated hown) trivial
  | updateState ambient read pendingAckAt acknowledgedAt expiresAt =>
    exact updateState_isolated_iff hown
  | markRead ambient seenWatermark provenance =>
    exact iff_of_true (markRead_isolated ambient seenWatermark provenance) trivial
  | bindTemplate template message => exact bindTemplate_isolated_iff hown

section Sample

/-- The lead and the member both hold the seventh message key. -/
def sampleShared : Db := run .accepting [sampleWrite (sampleMessage sampleLead sampleMember 7),
  sampleWrite (sampleMessage sampleMember sampleLead 7)] .empty

def sampleSharedKey : MessageKey := (sampleMessage sampleLead sampleMember 7).messageKey

/-- The deletion of the member's message deletes the message of the lead. -/
theorem delete_reaches_other_mailbox :
    (sampleShared.mailMessages.find? (sampleTeam, sampleMember, sampleSharedKey)).isSome = true ∧
    (sampleShared.mailMessages.find? (sampleTeam, sampleLead, sampleSharedKey)).isSome = true ∧
    (match MailboxCall.run .accepting ⟨sampleTeam, sampleMember⟩ sampleSharedKey (.delete .local) sampleShared with
      | .ok (_, db) => (db.mailMessages.find? (sampleTeam, sampleLead, sampleSharedKey)).isNone
      | .error _ => false) = true := by
  decide +kernel

/-- The member's message was stored first, so that it is loaded as if the lead did not hold the key. -/
theorem member_load_isolated : Isolated ⟨sampleTeam, sampleMember⟩ sampleSharedKey
      (MailboxCall.run .accepting ⟨sampleTeam, sampleMember⟩ sampleSharedKey .readerLoad) sampleShared := by
  obtain ⟨own, hown⟩ := isSome_iff_exists.mp
    (show (sampleShared.mailMessages.find? (sampleTeam, sampleMember, sampleSharedKey)).isSome = true by decide +kernel)
  refine (mailbox_call_isolated_iff .accepting ⟨sampleTeam, sampleMember⟩ sampleSharedKey .readerLoad sampleShared own
    hown).mpr ?_
  have hfirst : (sampleShared.firstOf sampleSharedKey).any (MailRow.within ⟨sampleTeam, sampleMember⟩) = true := by
    decide +kernel
  exact (Option.any_eq_true _ _).mp hfirst

end Sample

end AtmCore
