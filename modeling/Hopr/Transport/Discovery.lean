import Mathlib.Algebra.GroupWithZero.Nat
import Mathlib.Data.Finset.Basic
import Mathlib.Data.List.Sort
import Mathlib.Logic.Function.Basic

/-! The discovery behaviour.

Peers are announced with their addresses, connect, disconnect and fail to be
dialed, in any order. The behaviour keeps the addresses to dial
(`bootstrap_peers`), the number of live connections of each connected peer, the
back-off of each peer that is to be dialed or being dialed
(`not_connected_peers`), and a heap of the scheduled dials with the set of peers
in it (`queued_dials`). `poll` takes the next announcement, turns the scheduled
dials that are due into `Dial` events and hands out one event at a time.

What the outside decides comes with each call: the announcement that is ready,
the clock, and the back-off a builder makes. -/
namespace Hopr.Transport.Discovery

/-- Nanoseconds since the start. -/
abbrev Instant := Nat

structure PeerId where
  bytes : List UInt8
deriving DecidableEq

/-- An item alongside a release time, by which alone it is ordered. -/
structure Delayed (T : Type) where
  release_at : Instant
  item : T
deriving DecidableEq

/-- The iterator of delays of an exponential back-off. -/
class ExponentialBackoff (B : Type) where
  next : B → Option Nat × B

/-- Whether an address is publicly routable. -/
class PublicAddress (Multiaddr : Type) where
  is_public_address : Multiaddr → Bool

/-- What the behaviour tells the swarm. -/
inductive ToSwarm (Multiaddr : Type) where
  | NewExternalAddrOfPeer (peer_id : PeerId) (address : Multiaddr)
  | Dial (peer_id : PeerId) (addresses : List Multiaddr)
deriving DecidableEq

/-- Why a dial failed. -/
inductive DialError where
  | NoAddresses
  | Transient
deriving DecidableEq

/-- What the swarm tells the behaviour. -/
inductive FromSwarm where
  | ConnectionEstablished (peer_id : PeerId)
  | ConnectionClosed (peer_id : PeerId)
  | DialFailure (peer_id : Option PeerId) (error : DialError)
deriving DecidableEq

/-- An announcement that is ready, the end of the announcements, or neither. -/
inductive PollNext (Multiaddr : Type) where
  | Announce (peer : PeerId) (multiaddresses : List Multiaddr)
  | Ended
  | Pending
deriving DecidableEq

structure Behaviour (Multiaddr B : Type) where
  me : PeerId
  pending_events : List (ToSwarm Multiaddr)
  bootstrap_peers : PeerId → Option (List Multiaddr)
  /-- When `false`, announced addresses that are not publicly routable are dropped. -/
  allow_private_addresses : Bool
  connected_peers : PeerId → Option Nat
  /-- The heap of scheduled dials, the earliest first. -/
  next_dial_attempts : List (Delayed PeerId)
  queued_dials : Finset PeerId
  not_connected_peers : PeerId → Option B
  /-- When the earliest scheduled dial falls due, if that is awaited. -/
  next_dial_timer : Option Instant

namespace Behaviour

section Dials
variable {Multiaddr B : Type}

def new (me : PeerId) (allow_private_addresses : Bool) : Behaviour Multiaddr B :=
  ⟨me, [], fun _ => none, allow_private_addresses, fun _ => none, [], ∅, fun _ => none, none⟩

def has_known_address (s : Behaviour Multiaddr B) (peer : PeerId) : Bool :=
  (s.bootstrap_peers peer).any fun addresses => !addresses.isEmpty

def has_scheduled_dial (s : Behaviour Multiaddr B) (peer : PeerId) : Bool := peer ∈ s.queued_dials

def cancel_dial (peer : PeerId) (s : Behaviour Multiaddr B) : Behaviour Multiaddr B :=
  {s with
    not_connected_peers := Function.update s.not_connected_peers peer none
    queued_dials := s.queued_dials.erase peer
    next_dial_attempts := s.next_dial_attempts.filter fun entry => entry.item ≠ peer}

/-- The heap after a push. -/
def push (entry : Delayed PeerId) (heap : List (Delayed PeerId)) : List (Delayed PeerId) :=
  heap.orderedInsert (fun d e => d.release_at < e.release_at) entry

/-- Ten seconds, for a back-off without a next delay. -/
def default_delay : Nat := 10 * 10 ^ 9

variable [ExponentialBackoff B]

/-- Schedules a dial after the next delay of the back-off, unless the peer has no known address or
is scheduled already. -/
def schedule_dial_with (now : Instant) (peer : PeerId) (backoff : B) (s : Behaviour Multiaddr B) :
    Behaviour Multiaddr B :=
  if !s.has_known_address peer || s.has_scheduled_dial peer then s else
    let (duration, backoff) := ExponentialBackoff.next backoff
    {s with
      not_connected_peers := Function.update s.not_connected_peers peer (some backoff)
      queued_dials := insert peer s.queued_dials
      next_dial_attempts := push ⟨now + duration.getD default_delay, peer⟩ s.next_dial_attempts}

/-- `initial` is what `initial_backoff` makes. -/
def on_swarm_event (initial : B) (now : Instant) (event : FromSwarm) (s : Behaviour Multiaddr B) :
    Behaviour Multiaddr B :=
  match event with
  | .ConnectionEstablished peer_id =>
    cancel_dial peer_id {s with
      connected_peers :=
        Function.update s.connected_peers peer_id (some ((s.connected_peers peer_id).getD 0 + 1))}
  | .ConnectionClosed peer_id =>
    let v := (s.connected_peers peer_id).getD 0 - 1
    if v = 0 then
      let s := {s with connected_peers := Function.update s.connected_peers peer_id none}
      -- a queued entry will handle the reconnect
      if (s.not_connected_peers peer_id).isNone then schedule_dial_with now peer_id initial s else s
    else {s with connected_peers := Function.update s.connected_peers peer_id (some v)}
  | .DialFailure (some peer) error =>
    if (s.connected_peers peer).isSome || error == .NoAddresses || !s.has_known_address peer then
      cancel_dial peer s
    else if !s.has_scheduled_dial peer then
      let backoff := (s.not_connected_peers peer).getD initial
      schedule_dial_with now peer backoff
        {s with not_connected_peers := Function.update s.not_connected_peers peer none}
    else s
  | .DialFailure none _ => s

end Dials

section Poll
variable {Multiaddr B : Type} [PublicAddress Multiaddr]

/-- Drops announced addresses this node must not dial. -/
def dialable_addresses (s : Behaviour Multiaddr B) (multiaddresses : List Multiaddr) :
    List Multiaddr :=
  multiaddresses.filter fun multiaddress =>
    s.allow_private_addresses || PublicAddress.is_public_address multiaddress

variable [ExponentialBackoff B]

/-- Stores the addresses of an announcement and schedules a dial, unless the peer is connected,
being dialed or this node. -/
def announce (initial : B) (now : Instant) (peer : PeerId) (multiaddresses : List Multiaddr)
    (s : Behaviour Multiaddr B) : Behaviour Multiaddr B :=
  if peer = s.me then s else
    let multiaddresses := s.dialable_addresses multiaddresses
    let s := {s with
      pending_events := s.pending_events ++ multiaddresses.map (.NewExternalAddrOfPeer peer)}
    if multiaddresses.isEmpty then s else
      let s := {s with
        bootstrap_peers := Function.update s.bootstrap_peers peer (some multiaddresses)}
      if (s.connected_peers peer).isNone && (s.not_connected_peers peer).isNone then
        schedule_dial_with now peer initial s
      else s

/-- What becomes of a dial that has left the heap: it is skipped, cancelled or becomes an event. -/
def dispatch (peer : PeerId) (s : Behaviour Multiaddr B) : Behaviour Multiaddr B :=
  if (s.not_connected_peers peer).isNone then s else
    match (s.bootstrap_peers peer).filter fun addresses => !addresses.isEmpty with
    | none => cancel_dial peer s
    | some addresses => {s with pending_events := s.pending_events ++ [.Dial peer addresses]}

/-- Takes the dials that are due from the heap, at most `n` of them. -/
def dial_loop (now : Instant) : Nat → Behaviour Multiaddr B → Behaviour Multiaddr B
  | 0, s => s
  | n + 1, s =>
    match s.next_dial_attempts with
    | [] => s
    | entry :: rest =>
      if entry.release_at ≤ now then
        dial_loop now n (dispatch entry.item {s with
          next_dial_attempts := rest
          queued_dials := s.queued_dials.erase entry.item})
      else s

/-- Waits for the earliest scheduled dial. -/
def arm_next_dial_timer (now : Instant) (s : Behaviour Multiaddr B) : Behaviour Multiaddr B :=
  {s with next_dial_timer :=
    (s.next_dial_attempts.head?.map (·.release_at)).filter fun release_at => now < release_at}

/-- Hands out the next pending event. -/
def pop_event (s : Behaviour Multiaddr B) : Option (ToSwarm Multiaddr × Behaviour Multiaddr B) :=
  match s.pending_events with
  | [] => none
  | value :: rest => some (value, {s with pending_events := rest})

/-- The behaviour once the announcements were polled. -/
def take_announcement (initial : B) (now : Instant) (next : PollNext Multiaddr)
    (s : Behaviour Multiaddr B) : Behaviour Multiaddr B :=
  match next with
  | .Announce peer multiaddresses => announce initial now peer multiaddresses s
  | _ => s

/-- One call of `poll`: the event it returns, or `none` when it is pending. -/
def poll (initial : B) (now : Instant) (next : PollNext Multiaddr) (s : Behaviour Multiaddr B) :
    Option (ToSwarm Multiaddr) × Behaviour Multiaddr B :=
  match pop_event s with
  | some (value, s) => (some value, s)
  | none =>
    let s := take_announcement initial now next s
    match pop_event s with
    | some (value, s) => (some value, s)
    | none =>
      let s := dial_loop now s.next_dial_attempts.length s
      match pop_event s with
      | some (value, s) => (some value, s)
      | none => (none, arm_next_dial_timer now s)

end Poll

end Behaviour

end Hopr.Transport.Discovery
