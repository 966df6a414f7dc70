import Mathlib.Data.Finset.Card
import Hopr.Library.Heap
import Hopr.Library.Machine
import Hopr.Transport.Discovery

/-! The network and its event loop.

The swarm counts the live connections of each peer and reports what happens to
them in order; the loop takes one report at a time and works it off in single
operations on what it shares with the rest of the node: the set of connected peers,
the store of their addresses, the registry of liveness flags and the channel on
which it announces peers. Streams are opened and accepted, and the network is looked
at, between any two of these operations; the swarm may also be ahead of the loop.

Whether an announcement is accepted by the channel is decided by the receivers. -/
namespace Hopr.Transport.Network
open Library Discovery

/-! ### The peer store -/

inductive NetworkError where
  | DisallowedOperationOnOwnPeerIdError
deriving DecidableEq

structure NetworkPeerStore (Multiaddr : Type) where
  me : PeerId
  my_addresses : Finset Multiaddr
  addresses : AList fun _ : PeerId => Finset Multiaddr

namespace NetworkPeerStore
variable {Multiaddr : Type}

def new (me : PeerId) (my_addresses : Finset Multiaddr) : NetworkPeerStore Multiaddr := ⟨me, my_addresses, ∅⟩

def has (peer : PeerId) (store : NetworkPeerStore Multiaddr) : Bool :=
  peer = store.me || (store.addresses.lookup peer).isSome

def add [DecidableEq Multiaddr] (peer : PeerId) (addresses : Finset Multiaddr)
    (store : NetworkPeerStore Multiaddr) : Except NetworkError (NetworkPeerStore Multiaddr) :=
  if peer = store.me then .error .DisallowedOperationOnOwnPeerIdError
  else
    match store.addresses.lookup peer with
    | some unit => .ok {store with addresses := store.addresses.insert peer (unit ∪ addresses)}
    | none => .ok {store with addresses := store.addresses.insert peer addresses}

def get (peer : PeerId) (store : NetworkPeerStore Multiaddr) : Option (Finset Multiaddr) :=
  if peer = store.me then some store.my_addresses else store.addresses.lookup peer

def remove (peer : PeerId) (store : NetworkPeerStore Multiaddr) :
    Except NetworkError (NetworkPeerStore Multiaddr) :=
  if peer = store.me then .error .DisallowedOperationOnOwnPeerIdError
  else .ok {store with addresses := store.addresses.erase peer}

def iter_keys (store : NetworkPeerStore Multiaddr) : List PeerId := store.addresses.keys

end NetworkPeerStore

/-! ### Liveness -/

/-- The flags that were made, and which of them is whose. -/
structure LivenessRegistry where
  flags : Heap Bool
  entries : Heap.Table PeerId

namespace LivenessRegistry

def default : LivenessRegistry := ⟨.new true, ∅⟩

def get_or_create_connected (peer : PeerId) (registry : LivenessRegistry) : Nat × LivenessRegistry :=
  match registry.entries.lookup peer with
  | some flag => (flag, registry)
  | none =>
    let (flag, flags) := registry.flags.alloc true
    (flag, ⟨flags, registry.entries.insert peer flag⟩)

end LivenessRegistry

inductive ErrorKind where
  | ConnectionAborted
  | Other
deriving DecidableEq

/-- A stream over the connection to a peer, with the flag it shares. -/
structure LivenessStream where
  peer : PeerId
  alive : Nat
deriving DecidableEq

/-- Any poll: of the inner stream, unless the flag is cleared. -/
def LivenessStream.poll {R : Type} (flags : Heap Bool) (inner : Except ErrorKind R) (stream : LivenessStream) :
    Except ErrorKind R :=
  if !flags.cell stream.alive then .error .ConnectionAborted else inner

/-! ### The event loop -/

inductive ConnectedPoint (Multiaddr : Type) where
  | Dialer (address : Multiaddr)
  | Listener (send_back_addr : Multiaddr)

/-- What the loop does something about. -/
inductive SwarmEvent (Multiaddr : Type) where
  | ConnectionEstablished (peer_id : PeerId) (num_established : Nat) (endpoint : ConnectedPoint Multiaddr)
  | ConnectionClosed (peer_id : PeerId) (num_established : Nat)
  | OutgoingConnectionError (peer_id : Option PeerId)

inductive NetworkEvent where
  | PeerConnected (peer : PeerId)
  | PeerDisconnected (peer : PeerId)
deriving DecidableEq

/-- An operation on what is shared. -/
inductive Op (Multiaddr : Type) where
  | store_add (peer : PeerId) (address : Multiaddr)
  | store_remove (peer : PeerId)
  | track (peer : PeerId)
  | untrack (peer : PeerId)
  /-- The entry of the registry is taken. -/
  | unregister (peer : PeerId)
  /-- The flag that was taken is cleared. -/
  | clear (flag : Nat)
  | try_broadcast (event : NetworkEvent)

def disconnect_peer {Multiaddr : Type} (peer : PeerId) : List (Op Multiaddr) :=
  [.untrack peer, .unregister peer, .try_broadcast (.PeerDisconnected peer)]

/-- What the loop does about an event; `pool` is what the swarm then says of its connections. -/
def handle {Multiaddr : Type} [PublicAddress Multiaddr] (allow_private_addresses : Bool) (pool : PeerId → Nat) :
    SwarmEvent Multiaddr → List (Op Multiaddr)
  | .ConnectionEstablished peer num_established endpoint =>
    if num_established = 1 then
      match endpoint with
      | .Dialer address =>
        (if allow_private_addresses || PublicAddress.is_public_address address then [.store_add peer address]
          else []) ++ [.track peer, .try_broadcast (.PeerConnected peer)]
      | .Listener send_back_addr =>
        (if allow_private_addresses || PublicAddress.is_public_address send_back_addr then
          [.store_add peer send_back_addr] else []) ++ [.track peer, .try_broadcast (.PeerConnected peer)]
    else []
  | .ConnectionClosed peer num_established => if num_established = 0 then disconnect_peer peer else []
  | .OutgoingConnectionError (some peer) =>
    if pool peer = 0 then .store_remove peer :: disconnect_peer peer else []
  | .OutgoingConnectionError none => []

structure State (Multiaddr : Type) where
  /-- The live connections of each peer. -/
  pool : PeerId → Nat
  /-- What the swarm has to report. -/
  pending : List (SwarmEvent Multiaddr)
  /-- What the loop has left to do about the last report. -/
  todo : List (Op Multiaddr)
  store : NetworkPeerStore Multiaddr
  tracker : Finset PeerId
  liveness : LivenessRegistry
  /-- What was announced, and whether the channel accepted it. -/
  announced : List (NetworkEvent × Bool)
  streams : List LivenessStream

namespace State
variable {Multiaddr : Type}

def new (me : PeerId) (my_addresses : Finset Multiaddr) : State Multiaddr :=
  ⟨fun _ => 0, [], [], .new me my_addresses, ∅, .default, [], []⟩

/-! #### What is seen of the network -/

def listening_as (s : State Multiaddr) : Finset Multiaddr := (s.store.get s.store.me).getD ∅

def discovered_peers (s : State Multiaddr) : Finset PeerId := s.store.iter_keys.toFinset

def connected_peers (s : State Multiaddr) : Finset PeerId := s.tracker

def is_connected (peer : PeerId) (s : State Multiaddr) : Bool := peer ∈ s.tracker

def multiaddress_of (peer : PeerId) (s : State Multiaddr) : Option (Finset Multiaddr) := s.store.get peer

inductive Health where
  | Red
  | Orange
  | Yellow
  | Green
deriving DecidableEq

def health (s : State Multiaddr) : Health :=
  match s.tracker.card with
  | 0 => .Red
  | 1 => .Orange
  | 2 | 3 => .Yellow
  | _ => .Green

/-! #### Steps -/

variable [DecidableEq Multiaddr]

/-- The loop logs an error of the store and goes on. -/
def perform (accepted : Bool) (s : State Multiaddr) : Op Multiaddr → State Multiaddr
  | .store_add peer address => {s with store := (s.store.add peer {address}).toOption.getD s.store}
  | .store_remove peer => {s with store := (s.store.remove peer).toOption.getD s.store}
  | .track peer => {s with tracker := insert peer s.tracker}
  | .untrack peer => {s with tracker := s.tracker.erase peer}
  | .unregister peer =>
    match s.liveness.entries.lookup peer with
    | some flag => {s with
        liveness := {s.liveness with entries := s.liveness.entries.erase peer}
        todo := .clear flag :: s.todo}
    | none => s
  | .clear flag => {s with liveness := {s.liveness with flags := s.liveness.flags.set flag false}}
  | .try_broadcast event => {s with announced := s.announced ++ [(event, accepted)]}

inductive Action (Multiaddr : Type) where
  /-- A connection to the peer comes up in the swarm. -/
  | connect (peer : PeerId) (endpoint : ConnectedPoint Multiaddr)
  /-- A connection to the peer goes down. -/
  | close (peer : PeerId)
  /-- A dial fails. -/
  | dial_error (peer : Option PeerId)
  /-- The loop takes the next report. -/
  | next
  /-- The loop does the next operation. -/
  | work (accepted : Bool)
  /-- A stream to the peer is opened or accepted, and gets its flag. -/
  | obtain_flag (peer : PeerId)

variable [PublicAddress Multiaddr]

def step (allow_private_addresses : Bool) (s : State Multiaddr) : Action Multiaddr → Option (State Multiaddr)
  | .connect peer endpoint => some {s with
      pool := Function.update s.pool peer (s.pool peer + 1)
      pending := s.pending ++ [.ConnectionEstablished peer (s.pool peer + 1) endpoint]}
  | .close peer =>
    if s.pool peer = 0 then none
    else some {s with
      pool := Function.update s.pool peer (s.pool peer - 1)
      pending := s.pending ++ [.ConnectionClosed peer (s.pool peer - 1)]}
  | .dial_error peer => some {s with pending := s.pending ++ [.OutgoingConnectionError peer]}
  | .next =>
    match s.todo, s.pending with
    | [], event :: rest => some {s with pending := rest, todo := handle allow_private_addresses s.pool event}
    | _, _ => none
  | .work accepted =>
    match s.todo with
    | op :: rest => some (perform accepted {s with todo := rest} op)
    | [] => none
  | .obtain_flag peer =>
    let (flag, liveness) := s.liveness.get_or_create_connected peer
    some {s with liveness, streams := s.streams ++ [⟨peer, flag⟩]}

end State

def machine (Multiaddr : Type) [DecidableEq Multiaddr] [PublicAddress Multiaddr] (allow_private_addresses : Bool) :
    Machine (State Multiaddr) (State.Action Multiaddr) :=
  ⟨State.step allow_private_addresses⟩

/-- Nothing is left to report or to do. -/
def Quiet {Multiaddr : Type} (s : State Multiaddr) : Prop := s.pending = [] ∧ s.todo = []

end Hopr.Transport.Network
