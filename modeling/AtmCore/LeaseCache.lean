import AtmCore.Names

/-! The cache of the receiver leases. An entry is empty, loading or cached; whoever finds it empty or expired sets it to
loading, looks the lease up without the lock and publishes the result, and everybody else waits. Beside the cache the
model remembers who set an entry to loading, counts the changes of the stored lease, and knows which of them each value
and each invalidation has seen. -/

namespace AtmCore

open Option Function

/-- A lease that was looked up, and how often the stored lease had changed by then. -/
structure SeenLease (α : Type) where
  lease : α
  version : Nat

inductive LeaseState (α : Type) where
  | empty
  | loading (owner : Nat)
  | cached (seen : SeenLease α) (expiresAt : Nat)

inductive LoadPhase (α : Type) where
  | examining
  | waiting
  /-- The entry is set to loading, and the budget not looked at yet. -/
  | claimed
  | lookup (seen : Option (SeenLease α))

/-- A running call. A load knows which changes were invalidated when it started, an invalidation which it began
after. -/
inductive LeaseCall (α : Type) where
  | load (key : MemberKey) (expiresAt floor : Nat) (phase : LoadPhase α)
  | invalidate (key : MemberKey) (since : Nat)

/-- A load that has set its entry to loading looks at its budget while something is left of it. -/
def LeaseCall.inTime {α : Type} (now : Nat) : LeaseCall α → Bool
  | .load _ expiresAt _ .claimed => decide (now < expiresAt)
  | _ => true

/-- What a load has returned, from the cache or from its own lookup. -/
structure LeaseAnswer (α : Type) where
  seen : SeenLease α
  floor : Nat
  cachedUntil : Option Nat
  examinedAt : Nat

structure LeaseCache (α : Type) where
  ttl : Nat
  now : Nat
  stored : SeenLease α
  entries : MemberKey → LeaseState α
  calls : Nat → Option (LeaseCall α)
  /-- The changes that an invalidation that has returned began after. -/
  settled : MemberKey → Nat
  answers : List (LeaseAnswer α)

inductive LeaseStep (α : Type) where
  | tick (elapsed : Nat)
  | change (lease : α)
  | load (id : Nat) (key : MemberKey) (deadline : Nat)
  | invalidate (id : Nat) (key : MemberKey)
  /-- A call accesses its entry or looks at its budget. -/
  | move (id : Nat)
  /-- The lookup of a call reads the stored lease. -/
  | read (id : Nat)
  /-- The lookup of a call ends, with what it has read or in a failure. -/
  | publish (id : Nat) (failed : Bool)

namespace LeaseCache

variable {α : Type}

def start (ttl : Nat) (lease : α) : LeaseCache α :=
  ⟨ttl, 0, ⟨lease, 0⟩, fun _ => .empty, fun _ => none, fun _ => 0, []⟩

def setCall (cache : LeaseCache α) (id : Nat) (call : Option (LeaseCall α)) : LeaseCache α :=
  { cache with calls := Function.update cache.calls id call }

def setEntry (cache : LeaseCache α) (key : MemberKey) (state : LeaseState α) : LeaseCache α :=
  { cache with entries := Function.update cache.entries key state }

def claim (cache : LeaseCache α) (id : Nat) (key : MemberKey) (expiresAt floor : Nat) : LeaseCache α :=
  (cache.setEntry key (.loading id)).setCall id (some (.load key expiresAt floor .claimed))

def answer (cache : LeaseCache α) (answer : LeaseAnswer α) : LeaseCache α :=
  { cache with answers := cache.answers ++ [answer] }

/-- What a load does next. One that waits for another has no step before its deadline, and a lookup has none here. -/
def moveLoad (cache : LeaseCache α) (id : Nat) (key : MemberKey) (expiresAt floor : Nat) :
    LoadPhase α → LeaseState α → Option (LeaseCache α)
  | .examining, .cached seen until' =>
    if cache.now < until' then some ((cache.setCall id none).answer ⟨seen, floor, some until', cache.now⟩)
    else some (cache.claim id key expiresAt floor)
  | .examining, .loading _ => some (cache.setCall id (some (.load key expiresAt floor .waiting)))
  | .examining, .empty => some (cache.claim id key expiresAt floor)
  | .waiting, .loading _ => if expiresAt ≤ cache.now then some (cache.setCall id none) else none
  | .waiting, _ => some (cache.setCall id (some (.load key expiresAt floor .examining)))
  | .claimed, _ =>
    -- without a budget the load returns its error here, and the entry stays as it is
    if expiresAt ≤ cache.now then some (cache.setCall id none)
    else some (cache.setCall id (some (.load key expiresAt floor (.lookup none))))
  | .lookup _, _ => none

def settle (cache : LeaseCache α) (key : MemberKey) (since : Nat) : LeaseCache α :=
  { cache with settled := Function.update cache.settled key (max (cache.settled key) since) }

def moveInvalidate (cache : LeaseCache α) (id : Nat) (key : MemberKey) (since : Nat) :
    LeaseState α → Option (LeaseCache α)
  | .loading _ => none
  | _ => some (((cache.setEntry key .empty).setCall id none).settle key since)

def publish (cache : LeaseCache α) (id : Nat) (key : MemberKey) (floor : Nat) :
    Bool → Option (SeenLease α) → Option (LeaseCache α)
  | true, _ => some ((cache.setCall id none).setEntry key .empty)
  | false, some seen =>
    some (((cache.setCall id none).setEntry key (.cached seen (cache.now + cache.ttl))).answer
      ⟨seen, floor, none, cache.now⟩)
  | false, none => none

def step (cache : LeaseCache α) : LeaseStep α → Option (LeaseCache α)
  | .tick elapsed => some { cache with now := cache.now + elapsed }
  | .change lease => some { cache with stored := ⟨lease, cache.stored.version + 1⟩ }
  | .load id key deadline =>
    if (cache.calls id).isSome then none
    else some (cache.setCall id (some (.load key (cache.now + deadline) (cache.settled key) .examining)))
  | .invalidate id key =>
    if (cache.calls id).isSome then none else some (cache.setCall id (some (.invalidate key cache.stored.version)))
  | .move id =>
    match cache.calls id with
    | some (.load key expiresAt floor phase) => cache.moveLoad id key expiresAt floor phase (cache.entries key)
    | some (.invalidate key since) => cache.moveInvalidate id key since (cache.entries key)
    | none => none
  | .read id =>
    match cache.calls id with
    | some (.load key expiresAt floor (.lookup none)) =>
      some (cache.setCall id (some (.load key expiresAt floor (.lookup (some cache.stored)))))
    | _ => none
  | .publish id failed =>
    match cache.calls id with
    | some (.load key _ floor (.lookup seen)) => cache.publish id key floor failed seen
    | _ => none

def run (cache : LeaseCache α) (steps : List (LeaseStep α)) : Option (LeaseCache α) := steps.foldlM step cache

def inTime (cache : LeaseCache α) : LeaseStep α → Bool
  | .move id => (cache.calls id).all (·.inTime cache.now)
  | _ => true

def runsInTime (cache : LeaseCache α) : List (LeaseStep α) → Bool
  | [] => true
  | step :: steps => cache.inTime step && (cache.step step).all (·.runsInTime steps)

end LeaseCache

/-- The receiver whose entry a call has set to loading. -/
def LeaseCall.holds {α : Type} : LeaseCall α → Option MemberKey
  | .load key _ _ .claimed | .load key _ _ (.lookup _) => some key
  | _ => none

/-- No call knows of more changes than there were; what a lookup has read is as new as what was invalidated. -/
def LeaseCall.Fits {α : Type} (settled : MemberKey → Nat) (version : Nat) : LeaseCall α → Prop
  | .load key _ floor phase =>
    floor ≤ settled key ∧ ∀ seen, phase = .lookup (some seen) → settled key ≤ seen.version
  | .invalidate _ since => since ≤ version

def LeaseAnswer.Fresh {α : Type} (answer : LeaseAnswer α) : Prop :=
  answer.floor ≤ answer.seen.version ∧ ∀ until' ∈ answer.cachedUntil, answer.examinedAt < until'

namespace LeaseCache

variable {α : Type}

def holds (calls : Nat → Option (LeaseCall α)) (id : Nat) : Option MemberKey := (calls id).bind LeaseCall.holds

structure Sound (cache : LeaseCache α) : Prop where
  owner : ∀ id key, holds cache.calls id = some key → cache.entries key = .loading id
  settled : ∀ key, cache.settled key ≤ cache.stored.version
  cached : ∀ key seen until', cache.entries key = .cached seen until' → cache.settled key ≤ seen.version
  fits : ∀ id, ∀ call ∈ cache.calls id, call.Fits cache.settled cache.stored.version
  answers : ∀ answer ∈ cache.answers, answer.Fresh

/-- Whoever has set an entry to loading still holds it. -/
def Held (cache : LeaseCache α) : Prop :=
  ∀ key owner, cache.entries key = .loading owner → holds cache.calls owner = some key

variable {cache next : LeaseCache α} {id : Nat} {call : Option (LeaseCall α)} {key : MemberKey} {state : LeaseState α}
  {expiresAt floor : Nat}

theorem holds_of_call {call : LeaseCall α} (h : cache.calls id = some call) : holds cache.calls id = call.holds := by
  rw [holds, h]
  rfl

theorem calls_setCall (other : Nat) :
    (cache.setCall id call).calls other = if other = id then call else cache.calls other :=
  update_apply ..

@[grind =] theorem holds_setCall (other : Nat) : holds (cache.setCall id call).calls other =
    if other = id then call.bind LeaseCall.holds else holds cache.calls other := by
  rw [holds, calls_setCall, holds]
  split <;> rfl

@[grind =] theorem entries_setCall : (cache.setCall id call).entries = cache.entries := rfl

@[grind =] theorem calls_setEntry : (cache.setEntry key state).calls = cache.calls := rfl

@[grind =] theorem entries_setEntry (other : MemberKey) :
    (cache.setEntry key state).entries other = if other = key then state else cache.entries other :=
  update_apply ..

theorem settled_settle {since : Nat} (other : MemberKey) : (cache.settle key since).settled other =
    if other = key then max (cache.settled key) since else cache.settled other :=
  update_apply ..

namespace Sound

theorem of_start (ttl : Nat) (lease : α) : Sound (start ttl lease) :=
  ⟨nofun, fun _ => Nat.le_refl 0, nofun, nofun, nofun⟩

variable (h : Sound cache)
include h

/-- An entry that is not loading is held by nobody. -/
theorem unheld (hentry : ∀ owner, cache.entries key ≠ .loading owner) (id : Nat) : holds cache.calls id ≠ some key :=
  fun hheld => hentry id (h.owner id key hheld)

theorem setCall (hholds : ∀ key, call.bind LeaseCall.holds = some key → cache.entries key = .loading id)
    (hfits : ∀ next ∈ call, next.Fits cache.settled cache.stored.version) : Sound (cache.setCall id call) := by
  refine ⟨fun other key hheld => ?_, h.settled, h.cached, fun other next hnext => ?_, h.answers⟩
  · rw [holds_setCall] at hheld
    split at hheld
    · next heq => exact heq ▸ hholds key hheld
    · exact h.owner other key hheld
  · rw [calls_setCall] at hnext
    split at hnext
    · exact hfits next hnext
    · exact h.fits other next hnext

theorem dropCall (id : Nat) : Sound (cache.setCall id none) := h.setCall nofun nofun

theorem setEntry (hfree : ∀ id, holds cache.calls id ≠ some key)
    (hstate : ∀ seen until', state = .cached seen until' → cache.settled key ≤ seen.version) :
    Sound (cache.setEntry key state) := by
  refine ⟨fun id other hheld => ?_, h.settled, fun other seen until' hentry => ?_, h.fits, h.answers⟩
  · have hne : other ≠ key := by
      rintro rfl
      exact hfree id hheld
    rw [entries_setEntry, if_neg hne]
    exact h.owner id other hheld
  · rw [entries_setEntry] at hentry
    split at hentry
    · next heq => exact heq ▸ hstate seen until' hentry
    · exact h.cached other seen until' hentry

theorem answer {answer : LeaseAnswer α} (hfresh : answer.Fresh) : Sound (cache.answer answer) := by
  refine ⟨h.owner, h.settled, h.cached, h.fits, fun other hmem => ?_⟩
  rcases List.mem_append.mp hmem with hmem | hmem
  · exact h.answers other hmem
  · exact List.mem_singleton.mp hmem ▸ hfresh

/-- An invalidation returns: nobody has a value or a lookup of the receiver that could be older. -/
theorem settle {since : Nat} (hentry : cache.entries key = .empty) (hsince : since ≤ cache.stored.version) :
    Sound (cache.settle key since) := by
  have hsettled : ∀ other, cache.settled other ≤ (cache.settle key since).settled other := by
    intro other
    rw [settled_settle]
    split
    · next heq => exact heq ▸ Nat.le_max_left ..
    · exact Nat.le_refl _
  have hother : ∀ other, other ≠ key → (cache.settle key since).settled other = cache.settled other :=
    fun other hne => (settled_settle other).trans (if_neg hne)
  refine ⟨h.owner, fun other => ?_, fun other seen until' hcached => ?_, fun id call hcall => ?_, h.answers⟩
  · rw [settled_settle]
    split
    · exact Nat.max_le.mpr ⟨h.settled key, hsince⟩
    · exact h.settled other
  · have hne : other ≠ key := by
      rintro rfl
      cases hentry.symm.trans hcached
    rw [hother other hne]
    exact h.cached other seen until' hcached
  · have hfits := h.fits id call hcall
    cases call with
    | invalidate => exact hfits
    | load other expiresAt floor phase =>
      refine ⟨Nat.le_trans hfits.1 (hsettled other), ?_⟩
      rintro seen rfl
      have hne : other ≠ key := by
        rintro rfl
        cases hentry.symm.trans (h.owner id other (holds_of_call hcall))
      rw [hother other hne]
      exact hfits.2 seen rfl

end Sound

/-- A step that keeps the order, and leaves an entry unheld only if one was before. -/
structure Kept (cache next : LeaseCache α) : Prop where
  sound : Sound next
  held : Held next ↔ Held cache

section Kept

theorem Kept.answer (hkept : Kept cache next) {answer : LeaseAnswer α} (hfresh : answer.Fresh) :
    Kept cache (next.answer answer) := ⟨hkept.sound.answer hfresh, hkept.held⟩

theorem Kept.of_time (hkept : Kept cache next) {inTime : Bool} (htime : inTime = true) :
    Sound next ∧ (Held next ↔ Held cache ∧ inTime = true) :=
  ⟨hkept.sound, hkept.held.trans (and_iff_left htime).symm⟩

variable (h : Sound cache)
include h

theorem kept_setCall (hsame : call.bind LeaseCall.holds = holds cache.calls id)
    (hfits : ∀ next ∈ call, next.Fits cache.settled cache.stored.version) : Kept cache (cache.setCall id call) := by
  refine ⟨h.setCall (fun key hheld => h.owner id key (hsame ▸ hheld)) hfits, forall₂_congr (fun key owner => ?_)⟩
  have hholds : holds (cache.setCall id call).calls owner = holds cache.calls owner := by
    rw [holds_setCall]
    split
    · next heq => rw [hsame, heq]
    · rfl
  rw [hholds]
  rfl

theorem kept_claim (hentry : ∀ owner, cache.entries key ≠ .loading owner) (hid : holds cache.calls id = none)
    (hfloor : floor ≤ cache.settled key) : Kept cache (cache.claim id key expiresAt floor) := by
  have hset : Sound (cache.setEntry key (.loading id)) := h.setEntry (h.unheld hentry) nofun
  refine ⟨hset.setCall (fun other hheld => ?_) (fun next hnext => ?_), forall₂_congr (fun other owner => ?_)⟩
  · rw [← some.inj hheld]
    exact update_self ..
  · cases hnext
    exact ⟨hfloor, nofun⟩
  · -- the entry was free and the call held nothing
    rw [claim, holds_setCall, entries_setCall, entries_setEntry, calls_setEntry]
    by_cases hkey : other = key <;> by_cases howner : owner = id <;> grind [LeaseCall.holds]

/-- The call that holds an entry ends and sets it. -/
theorem kept_release (hid : holds cache.calls id = some key) (hstate : ∀ owner, state ≠ .loading owner)
    (hcached : ∀ seen until', state = .cached seen until' → cache.settled key ≤ seen.version) :
    Kept cache ((cache.setCall id none).setEntry key state) := by
  have hloading := h.owner id key hid
  refine ⟨(h.dropCall id).setEntry (fun other hheld => ?_) hcached, forall₂_congr (fun other owner => ?_)⟩
  · -- the call was the only one that held the entry
    rw [holds_setCall] at hheld
    split at hheld
    · cases hheld
    · next hne => exact hne (LeaseState.loading.inj ((h.owner other key hheld).symm.trans hloading))
  · -- the entry was held, and the call held no other
    grind

/-- An invalidation finds its entry free, clears it and returns. -/
theorem kept_invalidate {since : Nat} (hentry : ∀ owner, cache.entries key ≠ .loading owner)
    (hcall : cache.calls id = some (.invalidate key since)) :
    Kept cache (((cache.setEntry key .empty).setCall id none).settle key since) := by
  have hset : Sound (cache.setEntry key .empty) := h.setEntry (h.unheld hentry) nofun
  refine ⟨(hset.dropCall id).settle (update_self ..) (h.fits id _ hcall), ?_⟩
  have hended : Kept (cache.setEntry key .empty) ((cache.setEntry key .empty).setCall id none) :=
    kept_setCall hset (holds_of_call hcall).symm nofun
  refine Iff.trans hended.held (forall₂_congr (fun other owner => ?_))
  rw [entries_setEntry]
  split
  · next heq => exact iff_of_true nofun (fun hload => absurd (heq ▸ hload) (hentry owner))
  · rfl

theorem step_moveLoad {phase : LoadPhase α} (hcall : cache.calls id = some (.load key expiresAt floor phase))
    (hmove : cache.moveLoad id key expiresAt floor phase (cache.entries key) = some next) :
    Sound next ∧ (Held next ↔ Held cache ∧ cache.inTime (.move id) = true) := by
  have hid := holds_of_call hcall
  have hfits := h.fits id _ hcall
  rw [inTime, hcall, all_some]
  generalize hentry : cache.entries key = entry at hmove
  cases phase with
  | examining =>
    refine Kept.of_time ?_ rfl
    cases entry with
    | empty =>
      cases hmove
      exact kept_claim h (fun owner => hentry ▸ nofun) hid hfits.1
    | loading owner =>
      cases hmove
      exact kept_setCall h hid.symm (fun next hnext => some.inj hnext ▸ ⟨hfits.1, nofun⟩)
    | cached seen until' =>
      rw [moveLoad] at hmove
      split at hmove
      · next hnow =>
        cases hmove
        have hended : Kept cache (cache.setCall id none) := kept_setCall h hid.symm nofun
        refine hended.answer ⟨Nat.le_trans hfits.1 (h.cached key seen until' hentry), fun other hother => ?_⟩
        exact some.inj hother ▸ hnow
      · cases hmove
        exact kept_claim h (fun owner => hentry ▸ nofun) hid hfits.1
  | waiting =>
    refine Kept.of_time ?_ rfl
    cases entry with
    | empty | cached =>
      cases hmove
      exact kept_setCall h hid.symm (fun next hnext => some.inj hnext ▸ ⟨hfits.1, nofun⟩)
    | loading owner =>
      rw [moveLoad] at hmove
      split at hmove
      · cases hmove
        exact kept_setCall h hid.symm nofun
      · cases hmove
  | claimed =>
    rw [moveLoad] at hmove
    split at hmove
    · next hspent =>
      -- the entry stays loading, and nobody holds it
      cases hmove
      refine ⟨h.dropCall id, iff_of_false (fun hheld => ?_) (fun hboth => ?_)⟩
      · have hkey := hheld key id (h.owner id key hid)
        rw [holds_setCall, if_pos rfl] at hkey
        cases hkey
      · exact Nat.not_lt.mpr hspent (of_decide_eq_true hboth.2)
    · next hleft =>
      cases hmove
      refine Kept.of_time ?_ (decide_eq_true (Nat.lt_of_not_le hleft))
      exact kept_setCall h hid.symm (fun next hnext => some.inj hnext ▸ ⟨hfits.1, nofun⟩)
  | lookup => cases hmove

theorem kept_publish {failed : Bool} {seen : Option (SeenLease α)}
    (hcall : cache.calls id = some (.load key expiresAt floor (.lookup seen)))
    (hmove : cache.publish id key floor failed seen = some next) : Kept cache next := by
  have hid := holds_of_call hcall
  cases failed with
  | true =>
    cases hmove
    exact kept_release h hid nofun nofun
  | false =>
    cases seen with
    | none => cases hmove
    | some seen =>
      cases hmove
      obtain ⟨hfloor, hseen⟩ := h.fits id _ hcall
      have hreleased : Kept cache ((cache.setCall id none).setEntry key (.cached seen (cache.now + cache.ttl))) :=
        kept_release h hid nofun (fun other until' heq => (LeaseState.cached.inj heq).1 ▸ hseen seen rfl)
      exact hreleased.answer ⟨Nat.le_trans hfloor (hseen seen rfl), nofun⟩

/-- Every step keeps the order, and it leaves an entry unheld exactly if it is not in time. -/
theorem step_sound {step : LeaseStep α} (hstep : cache.step step = some next) :
    Sound next ∧ (Held next ↔ Held cache ∧ cache.inTime step = true) := by
  cases step with
  | tick =>
    cases hstep
    refine Kept.of_time ?_ rfl
    exact ⟨⟨h.owner, h.settled, h.cached, h.fits, h.answers⟩, Iff.rfl⟩
  | change lease =>
    cases hstep
    refine Kept.of_time ?_ rfl
    refine ⟨⟨h.owner, fun key => Nat.le_succ_of_le (h.settled key), h.cached, fun id call hcall => ?_, h.answers⟩,
      Iff.rfl⟩
    have hfits := h.fits id call hcall
    cases call with
    | load => exact hfits
    | invalidate => exact Nat.le_succ_of_le hfits
  | load id key =>
    rw [LeaseCache.step] at hstep
    split at hstep
    · cases hstep
    · next hnone =>
      cases hstep
      refine Kept.of_time ?_ rfl
      refine kept_setCall h ?_ (fun next hnext => some.inj hnext ▸ ⟨Nat.le_refl _, nofun⟩)
      rw [holds, not_isSome_iff_eq_none.mp hnone]
      rfl
  | invalidate id key =>
    rw [LeaseCache.step] at hstep
    split at hstep
    · cases hstep
    · next hnone =>
      cases hstep
      refine Kept.of_time ?_ rfl
      refine kept_setCall h ?_ (fun next hnext => some.inj hnext ▸ Nat.le_refl _)
      rw [holds, not_isSome_iff_eq_none.mp hnone]
      rfl
  | move id =>
    rw [LeaseCache.step] at hstep
    split at hstep
    · next hcall => exact step_moveLoad h hcall hstep
    · next key since hcall =>
      rw [inTime, hcall, all_some]
      refine Kept.of_time ?_ rfl
      cases hentry : cache.entries key with
      | loading owner =>
        rw [hentry] at hstep
        cases hstep
      | empty | cached =>
        rw [hentry] at hstep
        cases hstep
        exact kept_invalidate h (fun owner => hentry ▸ nofun) hcall
    · cases hstep
  | read id =>
    rw [LeaseCache.step] at hstep
    split at hstep
    · next key expiresAt floor hcall =>
      cases hstep
      refine Kept.of_time ?_ rfl
      refine kept_setCall h (holds_of_call hcall).symm (fun next hnext => ?_)
      cases hnext
      refine ⟨(h.fits id _ hcall).1, fun seen hseen => ?_⟩
      cases hseen
      exact h.settled key
    · cases hstep
  | publish id failed =>
    rw [LeaseCache.step] at hstep
    split at hstep
    · next hcall => exact (kept_publish h hcall hstep).of_time rfl
    · cases hstep

/-- Along a run every entry stays held exactly if the loads look at their budgets in time. -/
theorem run_sound {steps : List (LeaseStep α)} (hrun : cache.run steps = some next) :
    Sound next ∧ (Held next ↔ Held cache ∧ cache.runsInTime steps = true) := by
  induction steps generalizing cache with
  | nil =>
    cases hrun
    exact ⟨h, (and_iff_left rfl).symm⟩
  | cons step steps ih =>
    obtain ⟨second, hstep, hrun⟩ := bind_eq_some_iff.mp hrun
    obtain ⟨hsecond, hheld⟩ := step_sound h hstep
    obtain ⟨hnext, hrest⟩ := ih hsecond hrun
    refine ⟨hnext, ?_⟩
    rw [hrest, hheld, runsInTime, hstep, all_some, Bool.and_eq_true, and_assoc]

end Kept

/-- The next invalidation of the receiver returns, and the next load that has a budget looks the lease up or answers
from a value that has not expired. -/
structure Recovers (cache : LeaseCache α) (key : MemberKey) : Prop where
  invalidation : ∀ id since, cache.calls id = some (.invalidate key since) →
    ∃ next, cache.step (.move id) = some next ∧ next.calls id = none
  load : ∀ id expiresAt floor, cache.calls id = some (.load key expiresAt floor .examining) → cache.now < expiresAt →
    (∃ next, cache.run [.move id, .move id] = some next ∧
      next.calls id = some (.load key expiresAt floor (.lookup none))) ∨
    ∃ next seen until', cache.step (.move id) = some next ∧ next.calls id = none ∧
      cache.entries key = .cached seen until' ∧ cache.now < until' ∧
      next.answers = cache.answers ++ [⟨seen, floor, some until', cache.now⟩]

theorem recovers_of_free (hentry : ∀ owner, cache.entries key ≠ .loading owner) : Recovers cache key := by
  refine ⟨fun id since hcall => ?_, fun id expiresAt floor hcall hbudget => ?_⟩
  · have hmove : cache.step (.move id) = cache.moveInvalidate id key since (cache.entries key) := by
      rw [step, hcall]
    cases hfree : cache.entries key with
    | loading owner => exact absurd hfree (hentry owner)
    | empty | cached =>
      rw [hfree] at hmove
      refine ⟨_, hmove, ?_⟩
      exact update_self ..
  · -- the load has set the entry, and a budget is left
    have hlookup : ∃ next, (cache.claim id key expiresAt floor).step (.move id) = some next ∧
        next.calls id = some (.load key expiresAt floor (.lookup none)) := by
      have hclaimed : (cache.claim id key expiresAt floor).calls id = some (.load key expiresAt floor .claimed) :=
        update_self ..
      rw [step, hclaimed]
      refine ⟨_, if_neg (Nat.not_le.mpr hbudget), ?_⟩
      exact update_self ..
    have hrun : cache.step (.move id) = some (cache.claim id key expiresAt floor) →
        ∃ next, cache.run [.move id, .move id] = some next ∧
          next.calls id = some (.load key expiresAt floor (.lookup none)) := by
      intro hclaim
      obtain ⟨next, hstep, hnext⟩ := hlookup
      refine ⟨next, ?_, hnext⟩
      rw [run, List.foldlM_cons, hclaim, bind_eq_bind, bind_some, List.foldlM_cons, hstep]
      rfl
    have hmove : cache.step (.move id) = cache.moveLoad id key expiresAt floor .examining (cache.entries key) := by
      rw [step, hcall]
    cases hfree : cache.entries key with
    | loading owner => exact absurd hfree (hentry owner)
    | empty =>
      rw [hfree] at hmove
      exact .inl (hrun hmove)
    | cached seen until' =>
      rw [hfree, moveLoad] at hmove
      split at hmove
      · next hnow => exact .inr ⟨_, seen, until', hmove, update_self .., rfl, hnow, rfl⟩
      · exact .inl (hrun hmove)

end LeaseCache

open LeaseCache

variable {α : Type}

/-- In a run an entry is loading only while a call holds it exactly if every load that has set its entry to loading
finds something left of its budget then; and in such a run a receiver that nobody holds is served. -/
theorem lease_cache_recovers (ttl : Nat) (lease : α) (steps : List (LeaseStep α)) (cache : LeaseCache α)
    (hrun : (start ttl lease).run steps = some cache) :
    ((start ttl lease).runsInTime steps = true ↔
      ∀ key owner, cache.entries key = .loading owner → holds cache.calls owner = some key) ∧
    ((start ttl lease).runsInTime steps = true → ∀ key, (∀ id, holds cache.calls id ≠ some key) →
      Recovers cache key) := by
  have hheld : Held cache ↔ (start ttl lease).runsInTime steps = true :=
    ((run_sound (Sound.of_start ttl lease) hrun).2).trans (and_iff_right nofun)
  refine ⟨hheld.symm, fun htime key hfree => recovers_of_free (fun owner hload => ?_)⟩
  exact hfree owner (hheld.mpr htime key owner hload)

def sampleReceiver : MemberKey := ⟨⟨"team", rfl⟩, ⟨"agent", rfl⟩⟩

/-- A lookup fails while an invalidation and another load wait for it. -/
def sampleFailure : List (LeaseStep Nat) :=
  [.load 0 sampleReceiver 10, .move 0, .move 0, .invalidate 1 sampleReceiver, .load 2 sampleReceiver 10,
    .move 2, .tick 4, .publish 0 true, .move 2]

theorem loads_leave_no_loading : ∃ cache, (start 1 5).run sampleFailure = some cache ∧
    cache.calls 1 = some (.invalidate sampleReceiver 0) ∧
    cache.calls 2 = some (.load sampleReceiver 10 0 .examining) ∧ Recovers cache sampleReceiver := by
  obtain ⟨cache, hrun, hcalls⟩ : ∃ cache, (start 1 5).run sampleFailure = some cache ∧
      cache.calls 1 = some (.invalidate sampleReceiver 0) ∧
      cache.calls 2 = some (.load sampleReceiver 10 0 .examining) ∧ cache.entries sampleReceiver = .empty :=
    ⟨_, rfl, rfl, rfl, rfl⟩
  have hfree : ∀ id, holds cache.calls id ≠ some sampleReceiver :=
    (run_sound (Sound.of_start 1 5) hrun).1.unheld (fun owner => hcalls.2.2 ▸ nofun)
  exact ⟨cache, hrun, hcalls.1, hcalls.2.1,
    (lease_cache_recovers 1 5 sampleFailure cache hrun).2 (by decide) sampleReceiver hfree⟩

/-- A load without a budget leaves the entry in its loading state, where an invalidation waits with nobody to wait
for. -/
theorem spent_load_blocks_receiver :
    ((start 1 5).run [.load 0 sampleReceiver 0, .move 0, .move 0, .invalidate 1 sampleReceiver]).map
      (fun cache => ((cache.calls 0).isNone, (cache.step (.move 1)).isNone)) = some (true, true) := by
  decide

/-- No load returns a lease that is older than an invalidation it started after, or that was expired when it was
looked at, and two lookups for one receiver are one. -/
theorem lease_cache_coherent (ttl : Nat) (lease : α) (steps : List (LeaseStep α)) (cache : LeaseCache α)
    (hrun : (start ttl lease).run steps = some cache) :
    (∀ answer ∈ cache.answers, answer.floor ≤ answer.seen.version ∧
      ∀ until' ∈ answer.cachedUntil, answer.examinedAt < until') ∧
    ∀ id id' key, holds cache.calls id = some key → holds cache.calls id' = some key → id = id' := by
  have hsound := (run_sound (Sound.of_start ttl lease) hrun).1
  refine ⟨hsound.answers, fun id id' key h h' => ?_⟩
  injection (hsound.owner id key h).symm.trans (hsound.owner id' key h')

/-- A load looks the lease up, the lease changes and is invalidated, and a second load has to look it up again. -/
def sampleLoads : List (LeaseStep Nat) :=
  [.load 0 sampleReceiver 10, .move 0, .move 0, .read 0, .publish 0 false, .change 7, .invalidate 1 sampleReceiver,
    .move 1, .load 2 sampleReceiver 10, .move 2, .move 2, .read 2, .publish 2 false]

theorem loads_return_fresh : ((start 1 5).run sampleLoads).map (fun cache => cache.answers.map (fun answer =>
      (answer.seen.lease, answer.seen.version, answer.floor))) = some [(5, 0, 0), (7, 1, 1)] ∧
    ∀ cache, (start 1 5).run sampleLoads = some cache → ∀ answer ∈ cache.answers, answer.floor ≤ answer.seen.version :=
  ⟨by decide, fun cache hrun answer hmem => ((lease_cache_coherent 1 5 sampleLoads cache hrun).1 answer hmem).1⟩

end AtmCore
