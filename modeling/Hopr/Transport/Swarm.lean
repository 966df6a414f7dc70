import Hopr.Library.Machine
import Hopr.Transport.Discovery

/-! The discovery behaviour in a swarm.

The swarm reports connections and failed dials and polls the behaviour, in any
order. A dial that ends may be one of this behaviour's (`own`) or of another.
Beside the behaviour the state keeps which of its dials were handed out and not
reported yet, and for which peers a dial failed with `NoAddresses` since they
were last announced, or last announced with an address to dial. -/
namespace Hopr.Transport.Swarm
open Library Discovery Behaviour

structure State (Multiaddr B : Type) where
  behaviour : Behaviour Multiaddr B
  /-- How many dials of the peer were handed out and not reported yet. -/
  dialing : PeerId → Nat
  /-- A dial failed with `NoAddresses` since the peer was last announced. -/
  failed_since_announced : PeerId → Bool
  /-- The same since it was last announced with an address to dial. -/
  failed_since_stored : PeerId → Bool

inductive Action (Multiaddr B : Type) where
  | on_swarm_event (own : Bool) (event : FromSwarm) (initial : B) (now : Instant)
  | poll (next : PollNext Multiaddr) (initial : B) (now : Instant)

/-- The peer whose dial ended. -/
def reported : FromSwarm → Option PeerId
  | .ConnectionEstablished peer => some peer
  | .DialFailure peer _ => peer
  | .ConnectionClosed _ => none

section Machine
variable {Multiaddr B : Type}

def start (me : PeerId) (allow_private_addresses : Bool) : State Multiaddr B :=
  ⟨.new me allow_private_addresses, fun _ => 0, fun _ => false, fun _ => false⟩

/-- The dials that are left once a dial of this behaviour was reported; `none` if there was none. -/
def report (own : Bool) (event : FromSwarm) (dialing : PeerId → Nat) : Option (PeerId → Nat) :=
  if own then
    match reported event with
    | some peer =>
      if dialing peer = 0 then none else some (Function.update dialing peer (dialing peer - 1))
    | none => none
  else some dialing

/-- What a failure with `NoAddresses` is remembered as. -/
def fail (event : FromSwarm) (failed : PeerId → Bool) : PeerId → Bool :=
  match event with
  | .DialFailure (some peer) .NoAddresses => Function.update failed peer true
  | _ => failed

def hand_out (event : Option (ToSwarm Multiaddr)) (dialing : PeerId → Nat) : PeerId → Nat :=
  match event with
  | some (.Dial peer _) => Function.update dialing peer (dialing peer + 1)
  | _ => dialing

variable [ExponentialBackoff B] [PublicAddress Multiaddr]

/-- The announcement that `poll` takes, if it takes one: of a peer other than this node, while no
event is pending. -/
def announced (next : PollNext Multiaddr) (s : Behaviour Multiaddr B) :
    Option (PeerId × List Multiaddr) :=
  match next with
  | .Announce peer multiaddresses =>
    if s.pending_events.isEmpty ∧ peer ≠ s.me then some (peer, multiaddresses) else none
  | _ => none

def step (s : State Multiaddr B) : Action Multiaddr B → Option (State Multiaddr B)
  | .on_swarm_event own event initial now =>
    (report own event s.dialing).map fun dialing =>
      { behaviour := s.behaviour.on_swarm_event initial now event
        dialing := dialing
        failed_since_announced := fail event s.failed_since_announced
        failed_since_stored := fail event s.failed_since_stored }
  | .poll next initial now =>
    let (event, behaviour) := s.behaviour.poll initial now next
    some {
      behaviour := behaviour
      dialing := hand_out event s.dialing
      failed_since_announced :=
        match announced next s.behaviour with
        | some (peer, _) => Function.update s.failed_since_announced peer false
        | none => s.failed_since_announced
      failed_since_stored :=
        match announced next s.behaviour with
        | some (peer, multiaddresses) =>
          if (s.behaviour.dialable_addresses multiaddresses).isEmpty then s.failed_since_stored
          else Function.update s.failed_since_stored peer false
        | none => s.failed_since_stored }

def machine (Multiaddr B : Type) [ExponentialBackoff B] [PublicAddress Multiaddr] :
    Machine (State Multiaddr B) (Action Multiaddr B) := ⟨step⟩

end Machine

/-! ### Addresses and back-offs to compute with -/

structure Ip4 where
  octets : UInt8 × UInt8 × UInt8 × UInt8
deriving DecidableEq

/-- All but the private, loopback and link-local addresses. -/
instance : PublicAddress Ip4 where
  is_public_address a :=
    match a.octets with
    | (10, _, _, _) | (127, _, _, _) | (192, 168, _, _) | (169, 254, _, _) => false
    | (172, b, _, _) => !(16 ≤ b && b < 32)
    | _ => true

/-- The delays that are left. -/
structure Delays where
  delays : List Nat
deriving DecidableEq

instance : ExponentialBackoff Delays where
  next backoff := (backoff.delays.head?, ⟨backoff.delays.tail⟩)

/-- Three seconds and half as much more each time. -/
def initial_backoff : Delays := ⟨[3000000000, 4500000000, 6750000000]⟩

end Hopr.Transport.Swarm
