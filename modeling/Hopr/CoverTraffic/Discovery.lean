import Mathlib.Data.Rat.Cast.Order
import Hopr.Graph.KeyView
import Hopr.Graph.Loopback
import Hopr.Library.Outputs

/-! The prober of the full network.

One stream of probes to neighbors and one of probes over loops are polled beside
each other, while the graph changes. At a tick, the nodes of the graph are listed, the
edge to each is read, and those that are not known to be down are shuffled by their
priority and probed in a burst; the batch is kept for later bursts while it is younger
than `shuffle_ttl`. Between two ticks of the other stream, the loops of two hops and
then those of three are looked up and probed.

The shuffle is weighted and not part of the repository, and any will do. Priorities
are computed exactly here, times are in nanoseconds. -/
namespace Hopr.CoverTraffic
open Hopr.Graph Library

/-! ### Probes -/

/-- A random pseudonym, by the number of those drawn before. -/
structure HoprPseudonym where
  draw : Nat
deriving DecidableEq

inductive NodeId where
  | Offchain (key : OffchainPublicKey)
deriving DecidableEq

inductive RoutingOptions where
  | Hops (hops : Nat)
  | IntermediatePath (path : List NodeId)
deriving DecidableEq

/-- `DestinationRouting::Forward` -/
structure DestinationRouting where
  destination : NodeId
  pseudonym : Option HoprPseudonym
  forward_options : RoutingOptions
  return_options : Option RoutingOptions
deriving DecidableEq

inductive ProbeRouting where
  | Neighbor (routing : DestinationRouting)
  | Looping (routing : DestinationRouting) (path_id : PathId)
deriving DecidableEq

/-- A peer is probed over no hops, and answers over none. -/
def neighbor_routing (pseudonym : HoprPseudonym) (peer : OffchainPublicKey) : DestinationRouting where
  destination := .Offchain peer
  pseudonym := some pseudonym
  forward_options := .Hops 0
  return_options := some (.Hops 0)

/-- The routing over a loop; `none` if it has more hops than a packet. -/
def loop_routing (me : OffchainPublicKey) (pseudonym : HoprPseudonym) (path : List OffchainPublicKey) :
    Option DestinationRouting :=
  (loopback_routing (strip_loopback_endpoints path me)).map fun path =>
    { destination := .Offchain me
      pseudonym := some pseudonym
      forward_options := .IntermediatePath (path.map .Offchain)
      return_options := none }

/-! ### Priorities -/

structure ProberConfig (F : Type) where
  staleness_weight : F
  quality_weight : F
  base_priority : F
  shuffle_ttl : Nat
  probe_connected_only : Bool

/-- What the priority of an edge is made of. -/
class EdgeScore (W : Type) (F : outParam Type) where
  /-- The score at a time. -/
  score : Nat → W → Option F
  last_update : W → Nat

instance EdgeScore.weights {A R : Nat → Type} {F : Type} [Field F] [LinearOrder F] [FloorSemiring F] [Weight.Powf F]
    [Weight.ExponentialMovingAverage A F] [Weight.WindowedRatio R F] : EdgeScore (Weight.Observations A R F) F where
  score now obs := obs.score now
  last_update obs := obs.last_update

section Priority
variable {F : Type} [Field F] [LinearOrder F]

def MAX_STALENESS_SECS : F := 300

def staleness_secs (last_update now : Nat) : F :=
  if last_update = 0 then MAX_STALENESS_SECS
  else min ((now - last_update : Nat) / (10 ^ 9 : Nat)) MAX_STALENESS_SECS

def immediate_probe_priority (score : F) (last_update now : Nat) (cfg : ProberConfig F) : F :=
  let normalized_staleness := staleness_secs last_update now / MAX_STALENESS_SECS
  let inverse_quality := 1 - max 0 (min score 1)
  cfg.staleness_weight * normalized_staleness + cfg.quality_weight * inverse_quality + cfg.base_priority

end Priority

/-! ### The prober -/

def LOOPBACK_HOP_COUNTS : List UInt64 := [MIN_LOOPBACK_HOPS, MAX_LOOPBACK_HOPS]

/-- How many loops of so many hops are looked up. -/
def LOOPS : Nat := 100

structure FullNetworkDiscovery (G M F : Type) where
  me : OffchainPublicKey
  cfg : ProberConfig F
  graph : ChannelGraph G M

/-- A batch of probes, and when it was shuffled. -/
structure ShuffleCache where
  probes : List ProbeRouting
  created_at : Nat

/-- A loop and its identifier. -/
abbrev Loop := List OffchainPublicKey × PathId

/-- A batch that is being made: its nodes are to be listed, or were listed at a time and for some the edge is left
to be read. -/
inductive Making (F : Type) where
  | listing
  | weighing (now : Nat) (left : List OffchainPublicKey) (weighted : List (OffchainPublicKey × F))

structure State (G M F : Type) extends FullNetworkDiscovery G M F where
  now : Nat
  /-- How many pseudonyms were drawn. -/
  draws : Nat
  cache : Option ShuffleCache
  making : Option (Making F)
  /-- What is left of the burst. -/
  burst : List ProbeRouting
  /-- The hop counts that are left until the next tick. -/
  hop_counts : List UInt64
  /-- The loops that are left of the last hop count. -/
  loops : List Loop

/-- What the environment does, and which stream is polled. -/
inductive Action (W F R : Type) where
  | change (call : Call W F)
  | elapse (time : Nat)
  /-- The ticker of the neighbors fires. -/
  | neighbors
  | nodes
  /-- The next edge is read. -/
  | weigh
  | shuffle (sh : Shuffle R (OffchainPublicKey × F)) (rng : R)
  | poll_neighbors
  /-- The ticker of the loops fires. -/
  | loops
  /-- The loops of the next hop count are looked up, and shuffled. -/
  | find (search : Shuffle R (NodeIndex × W)) (rng : R) (sh : Shuffle R (Loop × F)) (rng' : R)
  | poll_loops

/-- `WeightedCollection::into_shuffled` -/
def into_shuffled {R A F : Type} (sh : Shuffle R (A × F)) (rng : R) (weighted : List (A × F)) : List A :=
  (sh.shuffle rng weighted).1.map Prod.fst

theorem into_shuffled_perm {R A F : Type} (sh : Shuffle R (A × F)) (rng : R) (weighted : List (A × F)) :
    (into_shuffled sh rng weighted).Perm (weighted.map Prod.fst) :=
  (sh.perm rng weighted).map Prod.fst

namespace State
variable {G M W F C R : Type} [StableDiGraph G OffchainPublicKey W] [BiHashMap M OffchainPublicKey NodeIndex]

/-- A prober of a new graph. -/
def new (me : OffchainPublicKey) (cfg : ProberConfig F) (max_plausible_loopback_rtt : Nat) : State G M F where
  me := me
  cfg := cfg
  graph := ChannelGraph.new me max_plausible_loopback_rtt
  now := 0
  draws := 0
  cache := none
  making := none
  burst := []
  hop_counts := []
  loops := []

/-- Whether a peer was found to be down. -/
def known_down [Observations W] (s : State G M F) (peer : OffchainPublicKey) : Bool :=
  ((s.graph.edge s.me peer).bind Observations.is_connected) == some false

/-- The nodes that are listed. -/
def listed [LeftValues M] (s : State G M F) : List OffchainPublicKey :=
  (LeftValues.left_values s.graph.inner.indices).filter fun peer => peer ≠ s.me

/-- A peer with its priority at a time, if it is to be probed. -/
def weigh [Observations W] [EdgeScore W F] [Field F] [LinearOrder F] (s : State G M F) (now : Nat)
    (peer : OffchainPublicKey) : Option (OffchainPublicKey × F) :=
  if s.cfg.probe_connected_only && s.known_down peer then none
  else
    match s.graph.edge s.me peer with
    | some obs => some (peer, immediate_probe_priority ((EdgeScore.score s.now obs).getD 0)
        (EdgeScore.last_update obs) now s.cfg)
    | none => some (peer, immediate_probe_priority 0 0 now s.cfg)

def needs_refresh (s : State G M F) : Bool :=
  match s.cache with
  | none => true
  | some c => c.probes.isEmpty || decide (s.cfg.shuffle_ttl ≤ s.now - c.created_at)

/-- A batch is made, or the last one is the burst. -/
def tick (s : State G M F) : State G M F :=
  if s.needs_refresh then {s with making := some .listing}
  else {s with burst := (s.cache.map ShuffleCache.probes).getD []}

/-- The new batch, with a pseudonym for each probe. -/
def probes (s : State G M F) (sh : Shuffle R (OffchainPublicKey × F)) (rng : R)
    (weighted : List (OffchainPublicKey × F)) : List ProbeRouting :=
  (into_shuffled sh rng weighted).zipIdx.map fun (peer, i) => .Neighbor (neighbor_routing ⟨s.draws + i⟩ peer)

def refresh (s : State G M F) (sh : Shuffle R (OffchainPublicKey × F)) (rng : R)
    (weighted : List (OffchainPublicKey × F)) : State G M F :=
  let probes := s.probes sh rng weighted
  {s with cache := some ⟨probes, s.now⟩, making := none, burst := probes, draws := s.draws + probes.length}

section Loops
variable [Observations W] [LT C] [DecidableLT C]

/-- The loops of so many hops, all of one priority. -/
def find_loops (value : UInt64 → ValueFn W C) (s : State G M F) (hops : UInt64)
    (search : Shuffle R (NodeIndex × W)) (rng : R) (sh : Shuffle R (Loop × F)) (rng' : R) : Option (List Loop) := do
  let paths ← s.graph.simple_loopback_to_self search rng hops (some LOOPS) value
  return into_shuffled sh rng' (paths.map fun path => (path, s.cfg.base_priority))

/-- The probe over a loop. -/
def probe (s : State G M F) (loop : Loop) : Option ProbeRouting :=
  (loop_routing s.me ⟨s.draws⟩ loop.1).map fun routing => .Looping routing loop.2

end Loops

end State

section Machine
variable {G M W F C R : Type} [StableDiGraph G OffchainPublicKey W] [BiHashMap M OffchainPublicKey NodeIndex]
  [Observations W] [NodeHealth W F] [EdgeScore W F] [Field F] [LinearOrder F] [LeftValues M] [LT C] [DecidableLT C]

def machine (value : UInt64 → ValueFn W C) : Machine (State G M F) (Action W F R) where
  step s
    | .change call => some {s with graph := s.graph.take call}
    | .elapse time => some {s with now := s.now + time}
    | .neighbors => if s.burst.isEmpty && s.making.isNone then some s.tick else none
    | .nodes =>
      match s.making with
      | some .listing => some {s with making := some (.weighing s.now s.listed [])}
      | _ => none
    | .weigh =>
      match s.making with
      | some (.weighing now (peer :: left) weighted) =>
        some {s with making := some (.weighing now left (weighted ++ (s.weigh now peer).toList))}
      | _ => none
    | .shuffle sh rng =>
      match s.making with
      | some (.weighing _ [] weighted) => some (s.refresh sh rng weighted)
      | _ => none
    | .poll_neighbors => if s.burst.isEmpty then none else some {s with burst := s.burst.tail}
    | .loops =>
      if s.loops.isEmpty && s.hop_counts.isEmpty then some {s with hop_counts := LOOPBACK_HOP_COUNTS} else none
    | .find search rng sh rng' =>
      match s.loops, s.hop_counts with
      | [], hops :: rest =>
        (s.find_loops value hops search rng sh rng').map fun loops => {s with loops, hop_counts := rest}
      | _, _ => none
    | .poll_loops =>
      match s.loops with
      | [] => none
      | loop :: rest => some {s with loops := rest, draws := s.draws + (s.probe loop).toList.length}

end Machine

/-! ### What is yielded -/

/-- The ticker of the neighbors fires. -/
def Action.fires {W F R : Type} : Action W F R → Bool
  | .neighbors => true
  | _ => false

/-- Loops are looked up. -/
def Action.finds {W F R : Type} : Action W F R → Bool
  | .find .. => true
  | _ => false

namespace State
variable {G M W F C R : Type}

/-- The neighbor probe that a step yields. -/
def neighbor_probe (s : State G M F) : Action W F R → Option ProbeRouting
  | .poll_neighbors => s.burst.head?
  | _ => none

/-- The probe over a loop that a step yields. -/
def loop_probe (s : State G M F) : Action W F R → Option ProbeRouting
  | .poll_loops => s.loops.head?.bind s.probe
  | _ => none

/-- The loop that a step takes. -/
def polled (s : State G M F) : Action W F R → List Loop
  | .poll_loops => s.loops.head?.toList
  | _ => []

/-- The peer whose edge is read next. -/
def next_peer (s : State G M F) : Option OffchainPublicKey :=
  match s.making with
  | some (.weighing _ left _) => left.head?
  | _ => none

/-- The burst that begins with a step. -/
def begun (s : State G M F) : Action W F R → List (List ProbeRouting)
  | .neighbors => if s.needs_refresh then [] else [(s.cache.map ShuffleCache.probes).getD []]
  | .shuffle sh rng =>
    match s.making with
    | some (.weighing _ _ weighted) => [s.probes sh rng weighted]
    | _ => []
  | _ => []

/-- The loops that a step finds. -/
def found [StableDiGraph G OffchainPublicKey W] [BiHashMap M OffchainPublicKey NodeIndex] [Observations W] [LT C]
    [DecidableLT C] (value : UInt64 → ValueFn W C) (s : State G M F) : Action W F R → List (List Loop)
  | .find search rng sh rng' => (s.hop_counts.head?.bind fun hops =>
      s.find_loops value hops search rng sh rng').toList
  | _ => []

end State

/-! ### Steps -/

section Steps
variable {G M W F C R : Type} [StableDiGraph G OffchainPublicKey W] [BiHashMap M OffchainPublicKey NodeIndex]
  [Observations W] [NodeHealth W F] [EdgeScore W F] [Field F] [LinearOrder F] [LeftValues M] [LT C] [DecidableLT C]

/-- What the steps do. -/
inductive Moved (value : UInt64 → ValueFn W C) (s : State G M F) : Action W F R → State G M F → Prop
  | change (call : Call W F) : Moved value s (.change call) {s with graph := s.graph.take call}
  | elapse (time : Nat) : Moved value s (.elapse time) {s with now := s.now + time}
  | again (batch : ShuffleCache) : s.burst = [] → s.making = none → s.needs_refresh = false →
      s.cache = some batch → s.now - batch.created_at < s.cfg.shuffle_ttl →
      Moved value s .neighbors {s with burst := batch.probes}
  | anew : s.burst = [] → s.making = none → s.needs_refresh = true →
      Moved value s .neighbors {s with making := some .listing}
  | nodes : s.making = some .listing → Moved value s .nodes {s with making := some (.weighing s.now s.listed [])}
  | weigh {now : Nat} {peer : OffchainPublicKey} {left : List OffchainPublicKey}
      {weighted : List (OffchainPublicKey × F)} : s.making = some (.weighing now (peer :: left) weighted) →
      Moved value s .weigh {s with making := some (.weighing now left (weighted ++ (s.weigh now peer).toList))}
  | shuffle {now : Nat} {weighted : List (OffchainPublicKey × F)} (sh : Shuffle R (OffchainPublicKey × F)) (rng : R) :
      s.making = some (.weighing now [] weighted) →
      Moved value s (.shuffle sh rng) (s.refresh sh rng weighted)
  | poll_neighbors {probe : ProbeRouting} {rest : List ProbeRouting} : s.burst = probe :: rest →
      Moved value s .poll_neighbors {s with burst := rest}
  | loops : s.loops = [] → Moved value s .loops {s with hop_counts := LOOPBACK_HOP_COUNTS}
  | find {hops : UInt64} {rest : List UInt64} {loops : List Loop} (search : Shuffle R (NodeIndex × W)) (rng : R)
      (sh : Shuffle R (Loop × F)) (rng' : R) : s.loops = [] → s.hop_counts = hops :: rest →
      s.find_loops value hops search rng sh rng' = some loops →
      Moved value s (.find search rng sh rng') {s with loops, hop_counts := rest}
  | poll_loops {loop : Loop} {rest : List Loop} : s.loops = loop :: rest →
      Moved value s .poll_loops {s with loops := rest, draws := s.draws + (s.probe loop).toList.length}

theorem moved {value : UInt64 → ValueFn W C} {s s' : State G M F} {a : Action W F R}
    (hstep : (machine value).step s a = some s') : Moved value s a s' := by
  cases a with
  | change call =>
    cases hstep
    exact .change call
  | elapse time =>
    cases hstep
    exact .elapse time
  | neighbors =>
    simp only [machine, Bool.and_eq_true, List.isEmpty_iff, Option.isNone_iff_eq_none] at hstep
    split at hstep
    · next hidle =>
      cases hstep
      cases hrefresh : s.needs_refresh with
      | true =>
        rw [State.tick, if_pos hrefresh]
        exact .anew hidle.1 hidle.2 hrefresh
      | false =>
        cases hcache : s.cache with
        | none =>
          rw [State.needs_refresh, hcache] at hrefresh
          cases hrefresh
        | some batch =>
          have hyoung : s.now - batch.created_at < s.cfg.shuffle_ttl := by
            simp only [State.needs_refresh, hcache, Bool.or_eq_false_iff, decide_eq_false_iff_not] at hrefresh
            exact Nat.lt_of_not_le hrefresh.2
          have htick : s.tick = {s with burst := batch.probes} := by simp [State.tick, hrefresh, hcache]
          rw [htick]
          exact .again batch hidle.1 hidle.2 hrefresh hcache hyoung
    · cases hstep
  | nodes =>
    simp only [machine] at hstep
    split at hstep
    · next hmaking =>
      cases hstep
      exact .nodes hmaking
    · cases hstep
  | weigh =>
    simp only [machine] at hstep
    split at hstep
    · next hmaking =>
      cases hstep
      exact .weigh hmaking
    · cases hstep
  | shuffle sh rng =>
    simp only [machine] at hstep
    split at hstep
    · next hmaking =>
      cases hstep
      exact .shuffle sh rng hmaking
    · cases hstep
  | poll_neighbors =>
    simp only [machine] at hstep
    cases hburst : s.burst with
    | nil =>
      rw [hburst] at hstep
      cases hstep
    | cons probe rest =>
      rw [hburst] at hstep
      cases hstep
      exact .poll_neighbors hburst
  | loops =>
    simp only [machine, Bool.and_eq_true, List.isEmpty_iff] at hstep
    split at hstep
    · next hempty =>
      cases hstep
      exact .loops hempty.1
    · cases hstep
  | find search rng sh rng' =>
    simp only [machine] at hstep
    split at hstep
    · next hloops hcounts =>
      obtain ⟨loops, hfound, rfl⟩ := Option.map_eq_some_iff.mp hstep
      exact .find search rng sh rng' hloops hcounts hfound
    · cases hstep
  | poll_loops =>
    simp only [machine] at hstep
    split at hstep
    · cases hstep
    · next hloops =>
      cases hstep
      exact .poll_loops hloops

end Steps

end Hopr.CoverTraffic
