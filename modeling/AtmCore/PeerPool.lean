import AtmCore.WriteRequest
import Mathlib.Data.Multiset.Filter
import Mathlib.Data.Multiset.AddSub
import Mathlib.Data.Multiset.Replicate
import Mathlib.Algebra.BigOperators.Group.Finset.Basic

/-! The pool of peer connections. Every idle connection, every live lease of a pooled connection and every acquisition
of one stands for a reservation, which the pool counts for each peer and in total. What runs at the same time, the
acquisitions at their await points and the leases, is a multiset: nothing tells two of them apart. -/

namespace AtmCore

/-- `PeerPoolConfig`, validated; durations are in nanoseconds. -/
structure PeerPoolConfig where
  maxPerPeer : Nat
  maxPooledTotal : Nat
  idleTimeout : Nat
  perPeerPositive : 0 < maxPerPeer
  totalPositive : 0 < maxPooledTotal
  timeoutPositive : 0 < idleTimeout

structure IdlePeerConnection where
  peer : HostName
  idleSince : Nat
  deriving DecidableEq

/-- `reservations_by_peer` keeps positive counts only, so it is a multiset of peers. The idle connections of a peer
are a stack, the newest in front. -/
structure PoolState where
  idle : List IdlePeerConnection
  reservationsByPeer : Multiset HostName
  pooledTotal : Nat

inductive ConnectionOrigin where
  | pooled
  | overflow
  deriving DecidableEq

inductive GuardHealth where
  | unused
  | healthy
  | failed
  deriving DecidableEq

structure PooledPeerConnection where
  peer : HostName
  origin : ConnectionOrigin
  health : GuardHealth
  deriving DecidableEq

namespace PoolState

def empty : PoolState := ⟨[], 0, 0⟩

/-- Reservations of a peer are given back; a peer without any, or too few, is a panic. -/
def giveBack (count : Nat) (peer : HostName) (state : PoolState) : Option PoolState :=
  if peer ∉ state.reservationsByPeer then none
  else if state.reservationsByPeer.count peer < count ∨ state.pooledTotal < count then none
  else some { state with
    reservationsByPeer := state.reservationsByPeer - Multiset.replicate count peer
    pooledTotal := state.pooledTotal - count }

def releaseReservation (peer : HostName) (state : PoolState) : Option PoolState := state.giveBack 1 peer

def expired (timeout now : Nat) (peer : HostName) (entry : IdlePeerConnection) : Bool :=
  decide (entry.peer = peer) && decide (timeout ≤ now - entry.idleSince)

/-- `take_expired_idle`: the expired connections of a peer go with their reservations. -/
def takeExpiredIdle (timeout now : Nat) (peer : HostName) (state : PoolState) : Option PoolState :=
  let taken := state.idle.filter (expired timeout now peer)
  let retained := { state with idle := state.idle.filter (fun entry => !expired timeout now peer entry) }
  if taken.isEmpty then some retained else retained.giveBack taken.length peer

def evictExpired (timeout now : Nat) (state : PoolState) : Option PoolState :=
  (state.idle.map IdlePeerConnection.peer).dedup.foldlM
    (fun state peer => state.takeExpiredIdle timeout now peer) state

/-- The newest idle connection of a peer is taken off the stack. -/
def popIdle (peer : HostName) (state : PoolState) : Option PoolState :=
  if state.idle.any (fun entry => decide (entry.peer = peer)) then
    some { state with idle := state.idle.eraseP (fun entry => decide (entry.peer = peer)) }
  else none

def pushIdle (entry : IdlePeerConnection) (state : PoolState) : PoolState := { state with idle := entry :: state.idle }

def reserveOrOverflow (config : PeerPoolConfig) (peer : HostName) (state : PoolState) : ConnectionOrigin × PoolState :=
  if config.maxPerPeer ≤ state.reservationsByPeer.count peer ∨ config.maxPooledTotal ≤ state.pooledTotal then
    (.overflow, state)
  else
    (.pooled, { state with
      reservationsByPeer := peer ::ₘ state.reservationsByPeer
      pooledTotal := state.pooledTotal + 1 })

end PoolState

/-- Where an acquisition is: at the wait for the sender of an idle connection, between the look at the idle
connections and the reservation, or while it opens a connection, its own or one that replaces a stale one. -/
inductive AcquirePhase where
  | popped
  | unreserved
  | opening (origin : ConnectionOrigin)
  deriving DecidableEq

structure Acquisition where
  peer : HostName
  phase : AcquirePhase
  deriving DecidableEq

inductive ReadyOutcome where
  | ready
  | stale
  | deadline

/-- The pool with what runs on it. A panic under the lock poisons it, and every later use of the lock panics. -/
structure PeerPool where
  state : PoolState
  panicked : Bool
  acquisitions : Multiset Acquisition
  guards : Multiset PooledPeerConnection

namespace PeerPool

def empty : PeerPool := ⟨.empty, false, 0, 0⟩

/-- A change under the lock; none is a panic. -/
def locked (change : PoolState → Option PoolState) (pool : PeerPool) : PeerPool :=
  if pool.panicked then pool
  else
    match change pool.state with
    | some state => { pool with state := state }
    | none => { pool with panicked := true }

def addAcquisition (acquisition : Acquisition) (pool : PeerPool) : PeerPool :=
  { pool with acquisitions := acquisition ::ₘ pool.acquisitions }

def removeAcquisition (acquisition : Acquisition) (pool : PeerPool) : PeerPool :=
  { pool with acquisitions := pool.acquisitions.erase acquisition }

def addGuard (guard : PooledPeerConnection) (pool : PeerPool) : PeerPool :=
  { pool with guards := guard ::ₘ pool.guards }

def removeGuard (guard : PooledPeerConnection) (pool : PeerPool) : PeerPool :=
  { pool with guards := pool.guards.erase guard }

/-- The first part of `acquire`. -/
def lookIdle (config : PeerPoolConfig) (peer : HostName) (now : Nat) (pool : PeerPool) : PeerPool :=
  let swept := pool.locked (fun state => state.takeExpiredIdle config.idleTimeout now peer)
  if swept.panicked then swept
  else
    match swept.state.popIdle peer with
    | some state => { swept with state := state }.addAcquisition ⟨peer, .popped⟩
    | none => swept.addAcquisition ⟨peer, .unreserved⟩

/-- `Drop` of a lease. -/
def dropGuard (guard : PooledPeerConnection) (now : Nat) (pool : PeerPool) : PeerPool :=
  match guard.origin, guard.health with
  | .pooled, .healthy => (pool.removeGuard guard).locked (fun state => some (state.pushIdle ⟨guard.peer, now⟩))
  | .pooled, _ => (pool.removeGuard guard).locked (fun state => state.releaseReservation guard.peer)
  | .overflow, _ => pool.removeGuard guard

end PeerPool

inductive PoolStep where
  | acquire (peer : HostName) (now : Nat)
  /-- `reserve_or_overflow`, when there was no idle connection. -/
  | reserve (peer : HostName)
  | ready (peer : HostName) (outcome : ReadyOutcome)
  | opened (peer : HostName) (origin : ConnectionOrigin) (succeeded : Bool)
  /-- An acquisition is dropped at an await point. -/
  | cancel (acquisition : Acquisition)
  /-- An exchange over a lease ends; one that is cancelled changes nothing. -/
  | exchange (guard : PooledPeerConnection) (succeeded : Bool)
  | drop (guard : PooledPeerConnection) (now : Nat)
  | evict (now : Nat)
  | shutdown

/-- A step of something that is not there changes nothing. -/
def PoolStep.apply (config : PeerPoolConfig) (step : PoolStep) (pool : PeerPool) : PeerPool :=
  match step with
  | .acquire peer now => pool.lookIdle config peer now
  | .reserve peer =>
    if ⟨peer, .unreserved⟩ ∈ pool.acquisitions ∧ pool.panicked = false then
      let (origin, state) := pool.state.reserveOrOverflow config peer
      { pool.removeAcquisition ⟨peer, .unreserved⟩ with state := state }.addAcquisition ⟨peer, .opening origin⟩
    else pool
  | .ready peer outcome =>
    if ⟨peer, .popped⟩ ∈ pool.acquisitions then
      let taken := pool.removeAcquisition ⟨peer, .popped⟩
      match outcome with
      | .ready => taken.addGuard ⟨peer, .pooled, .unused⟩
      | .stale => taken.addAcquisition ⟨peer, .opening .pooled⟩
      | .deadline => taken.locked (fun state => state.releaseReservation peer)
    else pool
  | .opened peer origin succeeded =>
    if ⟨peer, .opening origin⟩ ∈ pool.acquisitions then
      let taken := pool.removeAcquisition ⟨peer, .opening origin⟩
      if succeeded then taken.addGuard ⟨peer, origin, .unused⟩
      else
        match origin with
        | .pooled => taken.locked (fun state => state.releaseReservation peer)
        | .overflow => taken
    else pool
  | .cancel acquisition => pool.removeAcquisition acquisition
  | .exchange guard succeeded =>
    if guard ∈ pool.guards then
      (pool.removeGuard guard).addGuard { guard with health := if succeeded then .healthy else .failed }
    else pool
  | .drop guard now => if guard ∈ pool.guards then pool.dropGuard guard now else pool
  | .evict now => pool.locked (fun state => state.evictExpired config.idleTimeout now)
  | .shutdown => pool.locked (fun _ => some .empty)

def PeerPool.run (config : PeerPoolConfig) (steps : List PoolStep) (pool : PeerPool) : PeerPool :=
  steps.foldl (fun pool step => step.apply config pool) pool

end AtmCore
