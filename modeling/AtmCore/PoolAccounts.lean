import AtmCore.PeerPool

/-! The accounts of the pool. The reservations are, peer by peer, the idle connections and what leases and
acquisitions hold. A reservation passes between them or is given back with its holder, so the account holds in every
run in which no acquisition is cancelled while it holds a reservation and the pool is shut down only when nothing
holds one. -/

namespace AtmCore

open List

def PooledPeerConnection.holds (guard : PooledPeerConnection) : Option HostName :=
  match guard.origin with
  | .pooled => some guard.peer
  | .overflow => none

def Acquisition.holds (acquisition : Acquisition) : Option HostName :=
  match acquisition.phase with
  | .popped | .opening .pooled => some acquisition.peer
  | .unreserved | .opening .overflow => none

def PeerPool.held (pool : PeerPool) : Multiset HostName :=
  pool.guards.filterMap PooledPeerConnection.holds + pool.acquisitions.filterMap Acquisition.holds

/-- The account of the pool when others hold reservations beside the idle connections. -/
structure Balanced (config : PeerPoolConfig) (others : Multiset HostName) (state : PoolState) : Prop where
  reserved : state.reservationsByPeer = (state.idle.map IdlePeerConnection.peer : Multiset HostName) + others
  total : state.pooledTotal = state.reservationsByPeer.card
  perPeer : ∀ peer, state.reservationsByPeer.count peer ≤ config.maxPerPeer
  bounded : state.pooledTotal ≤ config.maxPooledTotal

section State

variable {config : PeerPoolConfig} {others : Multiset HostName} {state : PoolState} {peer : HostName}

/-- Reservations that are there can be given back. -/
theorem giveBack_balanced {count : Nat} (hcount : 0 < count)
    (htotal : state.pooledTotal = state.reservationsByPeer.card)
    (hperPeer : ∀ peer, state.reservationsByPeer.count peer ≤ config.maxPerPeer)
    (hbounded : state.pooledTotal ≤ config.maxPooledTotal)
    (hresv : state.reservationsByPeer = Multiset.replicate count peer +
      ((state.idle.map IdlePeerConnection.peer : Multiset HostName) + others)) :
    ∃ next, state.giveBack count peer = some next ∧ Balanced config others next := by
  have hcounted : count ≤ state.reservationsByPeer.count peer := by
    rw [hresv, Multiset.count_add, Multiset.count_replicate_self]
    omega
  have hmem : peer ∈ state.reservationsByPeer := Multiset.count_pos.mp (by omega)
  have hcard : count ≤ state.pooledTotal := by
    rw [htotal]
    exact hcounted.trans (Multiset.count_le_card _ _)
  have hrest : state.reservationsByPeer - Multiset.replicate count peer =
      (state.idle.map IdlePeerConnection.peer : Multiset HostName) + others := by
    rw [hresv, add_tsub_cancel_left]
  refine ⟨_, by rw [PoolState.giveBack, if_neg (not_not.mpr hmem), if_neg (by omega)], hrest, ?_, fun other => ?_, ?_⟩
  · have hsum := congrArg Multiset.card hresv
    rw [Multiset.card_add, Multiset.card_replicate] at hsum
    dsimp only
    rw [hrest]
    omega
  · exact (Multiset.count_le_of_le other (Multiset.sub_le_self _ _)).trans (hperPeer other)
  · dsimp only
    omega

theorem Balanced.releaseReservation (h : Balanced config (peer ::ₘ others) state) :
    ∃ next, state.releaseReservation peer = some next ∧ Balanced config others next := by
  refine giveBack_balanced Nat.one_pos h.total h.perPeer h.bounded ?_
  rw [h.reserved, Multiset.replicate_one, Multiset.add_cons, Multiset.singleton_add]

section

variable (h : Balanced config others state)
include h

theorem Balanced.takeExpiredIdle (now : Nat) (peer : HostName) :
    ∃ next, state.takeExpiredIdle config.idleTimeout now peer = some next ∧ Balanced config others next := by
  -- the idle connections are those that are taken and those that stay
  have hsplit : (state.idle.map IdlePeerConnection.peer : Multiset HostName) =
      Multiset.replicate (state.idle.filter (PoolState.expired config.idleTimeout now peer)).length peer +
        ((state.idle.filter (fun entry => !PoolState.expired config.idleTimeout now peer entry)).map
          IdlePeerConnection.peer : Multiset HostName) := by
    have htaken : (state.idle.filter (PoolState.expired config.idleTimeout now peer)).map IdlePeerConnection.peer =
        List.replicate (state.idle.filter (PoolState.expired config.idleTimeout now peer)).length peer := by
      refine eq_replicate_iff.mpr ⟨length_map _, fun other hother => ?_⟩
      obtain ⟨entry, hentry, rfl⟩ := List.mem_map.mp hother
      have hexpired := (mem_filter.mp hentry).2
      rw [PoolState.expired, Bool.and_eq_true] at hexpired
      exact of_decide_eq_true hexpired.1
    rw [← Multiset.coe_replicate, ← htaken, Multiset.coe_add, ← map_append]
    exact Multiset.coe_eq_coe.mpr ((filter_append_perm _ state.idle).map _).symm
  rw [PoolState.takeExpiredIdle]
  split
  · next hnone =>
    rw [List.isEmpty_iff] at hnone
    rw [hnone, length_nil, Multiset.replicate_zero, zero_add] at hsplit
    exact ⟨_, rfl, hsplit ▸ h.reserved, h.total, h.perPeer, h.bounded⟩
  · next hsome =>
    refine giveBack_balanced (length_pos_iff.mpr (fun hnil => hsome (by rw [hnil]; rfl))) h.total h.perPeer h.bounded ?_
    rw [h.reserved, hsplit, add_assoc]

theorem Balanced.evictExpired (now : Nat) :
    ∃ next, state.evictExpired config.idleTimeout now = some next ∧ Balanced config others next := by
  have hsweep : ∀ (peers : List HostName) (state : PoolState), Balanced config others state →
      ∃ next, peers.foldlM (fun state peer => state.takeExpiredIdle config.idleTimeout now peer) state = some next ∧
        Balanced config others next := by
    intro peers
    induction peers with
    | nil => exact fun state h => ⟨state, rfl, h⟩
    | cons peer peers ih =>
      intro state h
      obtain ⟨next, hnext, hbal⟩ := h.takeExpiredIdle now peer
      rw [foldlM_cons, hnext]
      exact ih next hbal
  exact hsweep _ state h

theorem Balanced.popIdle {next : PoolState} (hpop : state.popIdle peer = some next) :
    Balanced config (peer ::ₘ others) next := by
  rw [PoolState.popIdle] at hpop
  split at hpop
  · next hany =>
    cases hpop
    obtain ⟨entry, hentry, hpeer⟩ := List.any_eq_true.mp hany
    obtain ⟨first, before, after, -, hfirst, hidle, herase⟩ :=
      @List.exists_of_eraseP _ (fun entry => decide (entry.peer = peer)) _ _ hentry hpeer
    refine ⟨?_, h.total, h.perPeer, h.bounded⟩
    rw [h.reserved, herase, hidle, ← of_decide_eq_true hfirst]
    simp only [map_append, map_cons, ← Multiset.coe_add, ← Multiset.cons_coe, Multiset.add_cons,
      Multiset.cons_add]
  · cases hpop

end

theorem Balanced.pushIdle (h : Balanced config (peer ::ₘ others) state) (now : Nat) :
    Balanced config others (state.pushIdle ⟨peer, now⟩) := by
  refine ⟨?_, h.total, h.perPeer, h.bounded⟩
  rw [PoolState.pushIdle]
  rw [h.reserved, map_cons, ← Multiset.cons_coe, Multiset.add_cons, Multiset.cons_add]

theorem Balanced.reserve (h : Balanced config others state)
    (hresv : (state.reserveOrOverflow config peer).1 = .pooled) :
    Balanced config (peer ::ₘ others) (state.reserveOrOverflow config peer).2 := by
  rw [PoolState.reserveOrOverflow] at hresv ⊢
  split
  · next hfull =>
    rw [if_pos hfull] at hresv
    cases hresv
  · next hroom =>
    obtain ⟨hperPeer, htotal⟩ := not_or.mp hroom
    refine ⟨?_, ?_, fun other => ?_, ?_⟩
    · dsimp only
      rw [h.reserved, Multiset.add_cons]
    · dsimp only
      rw [Multiset.card_cons, h.total]
    · by_cases hother : other = peer
      · dsimp only
        rw [hother, Multiset.count_cons_self]
        omega
      · dsimp only
        rw [Multiset.count_cons_of_ne hother]
        exact h.perPeer other
    · dsimp only
      omega

theorem reserveOrOverflow_overflow (h : (state.reserveOrOverflow config peer).1 = .overflow) :
    (state.reserveOrOverflow config peer).2 = state := by
  rw [PoolState.reserveOrOverflow] at h ⊢
  split
  · rfl
  · next hroom =>
    rw [if_neg hroom] at h
    cases h

theorem Balanced.empty (config : PeerPoolConfig) : Balanced config 0 .empty :=
  ⟨rfl, rfl, fun _ => Nat.zero_le _, Nat.zero_le _⟩

end State

/-- A holder stands for one reservation or for none. -/
def reservation (holds : Option HostName) : Multiset HostName := (holds.map singleton).getD 0

section Held

variable {pool : PeerPool} {guard : PooledPeerConnection} {acquisition : Acquisition}

theorem held_addGuard : (pool.addGuard guard).held = reservation guard.holds + pool.held := by
  rw [PeerPool.held, PeerPool.addGuard, Multiset.filterMap_cons, add_assoc]
  rfl

theorem held_addAcquisition : (pool.addAcquisition acquisition).held = reservation acquisition.holds + pool.held := by
  rw [PeerPool.held, PeerPool.addAcquisition, Multiset.filterMap_cons, add_left_comm]
  rfl

theorem held_removeGuard (h : guard ∈ pool.guards) :
    pool.held = reservation guard.holds + (pool.removeGuard guard).held := by
  rw [← held_addGuard, PeerPool.addGuard, PeerPool.removeGuard, Multiset.cons_erase h]

theorem held_removeAcquisition (h : acquisition ∈ pool.acquisitions) :
    pool.held = reservation acquisition.holds + (pool.removeAcquisition acquisition).held := by
  rw [← held_addAcquisition, PeerPool.addAcquisition, PeerPool.removeAcquisition, Multiset.cons_erase h]

end Held

/-- Nothing panicked, and every reservation is an idle connection, a lease or an acquisition. -/
structure Accounts (config : PeerPoolConfig) (pool : PeerPool) : Prop where
  sound : pool.panicked = false
  balanced : Balanced config pool.held pool.state

/-- No acquisition is dropped while it holds a reservation, and the pool is shut down when nothing holds one. -/
def PoolStep.Settled (pool : PeerPool) : PoolStep → Prop
  | .cancel acquisition => acquisition ∈ pool.acquisitions → acquisition.holds = none
  | .shutdown => pool.held = 0
  | _ => True

/-- Every step of the run is settled where it is made. -/
def SettledRun (config : PeerPoolConfig) : List PoolStep → PeerPool → Prop
  | [], _ => True
  | step :: steps, pool => step.Settled pool ∧ SettledRun config steps (step.apply config pool)

section Steps

variable {config : PeerPoolConfig} {pool : PeerPool}

/-- A change under the lock that goes through leaves the account with what others hold. -/
theorem Accounts.locked {change : PoolState → Option PoolState} (hs : pool.panicked = false)
    (h : ∃ next, change pool.state = some next ∧ Balanced config pool.held next) :
    Accounts config (pool.locked change) := by
  obtain ⟨next, hnext, hbal⟩ := h
  rw [PeerPool.locked, if_neg (by simp [hs]), hnext]
  exact ⟨hs, hbal⟩

variable (h : Accounts config pool)
include h

theorem Accounts.lookIdle (peer : HostName) (now : Nat) : Accounts config (pool.lookIdle config peer now) := by
  have hswept := Accounts.locked h.sound (h.balanced.takeExpiredIdle now peer)
  rw [PeerPool.lookIdle]
  generalize pool.locked (fun state => state.takeExpiredIdle config.idleTimeout now peer) = swept at hswept ⊢
  rw [if_neg (by simp [hswept.sound])]
  split
  · next state hpop =>
    refine ⟨hswept.sound, ?_⟩
    rw [held_addAcquisition]
    exact hswept.balanced.popIdle hpop
  · refine ⟨hswept.sound, ?_⟩
    rw [held_addAcquisition]
    show Balanced config (0 + swept.held) swept.state
    rw [zero_add]
    exact hswept.balanced

theorem Accounts.dropGuard {guard : PooledPeerConnection} (hguard : guard ∈ pool.guards)
    (now : Nat) : Accounts config (pool.dropGuard guard now) := by
  have hbal := h.balanced
  rw [held_removeGuard hguard] at hbal
  rw [PeerPool.dropGuard]
  split
  · next horigin hhealth =>
    rw [PooledPeerConnection.holds, horigin] at hbal
    exact .locked h.sound ⟨_, rfl, hbal.pushIdle now⟩
  · next horigin hhealth =>
    rw [PooledPeerConnection.holds, horigin] at hbal
    exact .locked h.sound hbal.releaseReservation
  · next horigin =>
    rw [PooledPeerConnection.holds, horigin] at hbal
    exact ⟨h.sound, (zero_add (pool.removeGuard guard).held) ▸ hbal⟩

theorem Accounts.reserve {peer : HostName} (hwaits : ⟨peer, .unreserved⟩ ∈ pool.acquisitions) :
    Accounts config ({ pool.removeAcquisition ⟨peer, .unreserved⟩ with
      state := (pool.state.reserveOrOverflow config peer).2 }.addAcquisition
        ⟨peer, .opening (pool.state.reserveOrOverflow config peer).1⟩) := by
  have hbal := h.balanced
  rw [held_removeAcquisition hwaits] at hbal
  refine ⟨h.sound, ?_⟩
  rw [held_addAcquisition]
  cases horigin : (pool.state.reserveOrOverflow config peer).1 with
  | pooled => exact (zero_add (pool.removeAcquisition _).held ▸ hbal).reserve horigin
  | overflow =>
    rw [reserveOrOverflow_overflow horigin]
    exact hbal

theorem Accounts.step (step : PoolStep) (hset : step.Settled pool) : Accounts config (step.apply config pool) := by
  have hbal := h.balanced
  cases step with
  | acquire peer now => exact h.lookIdle peer now
  | reserve peer =>
    rw [PoolStep.apply]
    split
    · next hwaits => exact h.reserve hwaits.1
    · exact h
  | ready peer outcome =>
    rw [PoolStep.apply]
    split
    · next hpopped =>
      rw [held_removeAcquisition hpopped] at hbal
      cases outcome with
      | ready => exact ⟨h.sound, held_addGuard ▸ hbal⟩
      | stale => exact ⟨h.sound, held_addAcquisition ▸ hbal⟩
      | deadline => exact .locked h.sound hbal.releaseReservation
    · exact h
  | opened peer origin succeeded =>
    rw [PoolStep.apply]
    split
    · next hopening =>
      rw [held_removeAcquisition hopening] at hbal
      split
      · refine ⟨h.sound, ?_⟩
        rw [held_addGuard]
        cases origin <;> exact hbal
      · cases origin with
        | pooled => exact .locked h.sound hbal.releaseReservation
        | overflow => exact ⟨h.sound, zero_add (pool.removeAcquisition _).held ▸ hbal⟩
    · exact h
  | cancel acquisition =>
    by_cases hlive : acquisition ∈ pool.acquisitions
    · rw [held_removeAcquisition hlive, hset hlive] at hbal
      exact ⟨h.sound, zero_add (pool.removeAcquisition acquisition).held ▸ hbal⟩
    · rw [PoolStep.apply, PeerPool.removeAcquisition, Multiset.erase_of_notMem hlive]
      exact h
  | exchange guard succeeded =>
    rw [PoolStep.apply]
    split
    · next hguard =>
      rw [held_removeGuard hguard] at hbal
      exact ⟨h.sound, held_addGuard ▸ hbal⟩
    · exact h
  | drop guard now =>
    rw [PoolStep.apply]
    split
    · next hguard => exact h.dropGuard hguard now
    · exact h
  | evict now => exact .locked h.sound (hbal.evictExpired now)
  | shutdown =>
    have hempty : Balanced config pool.held .empty := by
      rw [show pool.held = 0 from hset]
      exact .empty config
    exact @Accounts.locked config pool (fun _ => some .empty) h.sound ⟨.empty, rfl, hempty⟩

theorem Accounts.run (steps : List PoolStep) (hset : SettledRun config steps pool) :
    Accounts config (pool.run config steps) := by
  induction steps generalizing pool with
  | nil => exact h
  | cons step steps ih => exact ih (h.step step hset.1) hset.2

end Steps

/-- What the pool says of itself is what there is: for each peer and in total, within the bounds, and without a
panic. -/
structure ExactAccounts (config : PeerPoolConfig) (pool : PeerPool) : Prop where
  unpanicked : pool.panicked = false
  summed : pool.state.pooledTotal =
    ∑ peer ∈ pool.state.reservationsByPeer.toFinset, pool.state.reservationsByPeer.count peer
  held : ∀ peer, pool.state.reservationsByPeer.count peer =
    (pool.state.idle.map IdlePeerConnection.peer).count peer +
      (pool.guards.filterMap PooledPeerConnection.holds).count peer +
      (pool.acquisitions.filterMap Acquisition.holds).count peer
  perPeer : ∀ peer, pool.state.reservationsByPeer.count peer ≤ config.maxPerPeer
  bounded : pool.state.pooledTotal ≤ config.maxPooledTotal
  idle : pool.guards = 0 → pool.acquisitions = 0 → pool.state.pooledTotal = pool.state.idle.length

theorem Accounts.exact {config : PeerPoolConfig} {pool : PeerPool} (h : Accounts config pool) :
    ExactAccounts config pool where
  unpanicked := h.sound
  summed := by
    rw [Multiset.toFinset_sum_count_eq]
    exact h.balanced.total
  held := by
    intro peer
    rw [h.balanced.reserved, Multiset.count_add, PeerPool.held, Multiset.count_add, Multiset.coe_count, add_assoc]
  perPeer := h.balanced.perPeer
  bounded := h.balanced.bounded
  idle := by
    intro hguards hacquisitions
    have hheld : pool.held = 0 := by rw [PeerPool.held, hguards, hacquisitions]; rfl
    rw [h.balanced.total, h.balanced.reserved, hheld, add_zero, Multiset.coe_card, length_map]

/-- In every run of the pool in which no acquisition is dropped with its reservation and the pool is shut down when
nothing holds one, the accounts are exact after every step. -/
theorem pool_accounts_exactly (config : PeerPoolConfig) (steps : List PoolStep)
    (hsettled : SettledRun config steps .empty) : ExactAccounts config (PeerPool.empty.run config steps) :=
  (Accounts.run ⟨rfl, .empty config⟩ steps hsettled).exact

def samplePoolConfig : PeerPoolConfig := ⟨1, 1, 1, by decide, by decide, by decide⟩

def samplePoolPeer : HostName := ⟨"peer", by decide⟩

/-- A connection is opened, used and given back, and a second acquisition overflows beside it. -/
def sampleExchange : List PoolStep :=
  [.acquire samplePoolPeer 0, .reserve samplePoolPeer, .acquire samplePoolPeer 0, .reserve samplePoolPeer,
    .opened samplePoolPeer .pooled true, .cancel ⟨samplePoolPeer, .opening .overflow⟩,
    .exchange ⟨samplePoolPeer, .pooled, .unused⟩ true, .drop ⟨samplePoolPeer, .pooled, .healthy⟩ 0]

theorem used_connection_stays_reserved :
    (PeerPool.empty.run samplePoolConfig sampleExchange).state.pooledTotal = 1 ∧
      ExactAccounts samplePoolConfig (PeerPool.empty.run samplePoolConfig sampleExchange) := by
  refine ⟨by decide +kernel, pool_accounts_exactly samplePoolConfig sampleExchange ?_⟩
  exact ⟨trivial, trivial, trivial, trivial, trivial, fun _ => rfl, trivial, trivial, trivial⟩

def sampleCancelled : List PoolStep :=
  [.acquire samplePoolPeer 0, .reserve samplePoolPeer, .cancel ⟨samplePoolPeer, .opening .pooled⟩]

def sampleShutdown : List PoolStep :=
  [.acquire samplePoolPeer 0, .reserve samplePoolPeer, .opened samplePoolPeer .pooled true, .shutdown,
    .drop ⟨samplePoolPeer, .pooled, .unused⟩ 0]

/-- An acquisition that is dropped while it opens a connection keeps its reservation, and a lease that outlives the
shutdown panics. -/
theorem dropped_acquisition_keeps_reservation :
    ((PeerPool.empty.run samplePoolConfig sampleCancelled).acquisitions = 0 ∧
      (PeerPool.empty.run samplePoolConfig sampleCancelled).guards = 0 ∧
      (PeerPool.empty.run samplePoolConfig sampleCancelled).state.idle = [] ∧
      (PeerPool.empty.run samplePoolConfig sampleCancelled).state.pooledTotal = 1) ∧
    (PeerPool.empty.run samplePoolConfig sampleShutdown).panicked = true := by
  decide +kernel

end AtmCore
