import Mathlib.Data.Finset.Dedup
import Hopr.Graph.Algorithm
import Hopr.Graph.ChannelGraph

/-! Paths between nodes, and loops.

`find_paths` searches the inner graph and gives each path that it finds its path
identifier, the slots of its nodes in order. A loop of so many hops
(`simple_loopback_to_self`) is a path to a neighbor that is not known to be
disconnected from the local node, closed behind it. The prober routes a packet
over the nodes of the loop between its ends (`strip_loopback_endpoints`).

The value functions of edges are floating-point and not part of the repository,
and any will do (`ValueFn`). -/
namespace Hopr.Graph
open StableDiGraph BiHashMap

structure ValueFn (W C : Type) where
  initial_value : C
  min_value : Option C
  value_fn : C → W → Nat → C
  /-- The bytes of a value. There is no larger type. -/
  value_size : Nat
  value_size_lt : value_size < 2 ^ 61

/-- The number of edges. -/
def ValueFn.edges (W : Type) : ValueFn W Nat := ⟨0, none, fun cost _ _ => cost + 1, 8, by decide⟩

def MIN_LOOPBACK_HOPS : UInt64 := 2

def MAX_INTERMEDIATE_HOPS : UInt64 := 3

def MAX_LOOPBACK_HOPS : UInt64 := MAX_INTERMEDIATE_HOPS

namespace InnerGraph
variable {G M W C R : Type} [StableDiGraph G OffchainPublicKey W]

/-- The inner graph as it is searched. -/
def searched (s : InnerGraph G M) : IntoEdgesDirected NodeIndex W where
  nodes := node_indices s.graph
  edges_directed a := (outgoing s.graph a).filterMap fun e => (edge s.graph e).map Prod.snd
  edges_size := edges_size G

variable [BiHashMap M OffchainPublicKey NodeIndex]

/-- The slot of the next node along a path. -/
def fill_slot (s : InnerGraph G M) (slots : PathId) (x : NodeIndex × Nat) : Option PathId :=
  if 5 ≤ x.2 then none
  else do
    let key ← get_by_right s.indices x.1
    return slots.set x.2 (path_id.encode key)

variable [LT C] [DecidableLT C] (sh : Shuffle R (NodeIndex × W)) (rng : R)

/-- A path without its source, with its identifier and cost. -/
def found (s : InnerGraph G M) (length : UInt64) (item : List NodeIndex × C) :
    Option (List OffchainPublicKey × PathId × C) := do
  let slots ← item.1.zipIdx.foldlM s.fill_slot PathId.zeros
  let nodes := item.1.tail.filterMap (get_by_right s.indices)
  if nodes.length = length.toNat then return (nodes, slots, item.2) else none

/-- The paths with so many edges that are searched for. -/
def paths_query (source : NodeIndex) (destinations : Finset NodeIndex) (length : UInt64)
    (value : ValueFn W C) : Query NodeIndex W C where
  source := source
  targets := destinations
  excluded_nodes := none
  min_intermediate_nodes := length - 1
  max_intermediate_nodes := some (length - 1)
  initial_cost := value.initial_value
  min_cost := value.min_value
  cost_fn := value.value_fn
  cost_size := value.value_size

def find_paths (s : InnerGraph G M) (source : NodeIndex) (destinations : Finset NodeIndex)
    (length : UInt64) (take_count : Option Nat) (value : ValueFn W C) :
    Option (List (List OffchainPublicKey × PathId × C)) :=
  if length = 0 then some []
  else do
    let items ← all_simple_paths_multi s.searched (paths_query source destinations length value) sh rng
    let paths := items.filterMap (s.found length)
    match take_count with
    | some take_count => return paths.take take_count
    | none => return paths

/-- The paths between two nodes, without either of them. -/
def simple_paths (s : InnerGraph G M) (source destination : OffchainPublicKey) (length : UInt64)
    (take_count : Option Nat) (value : ValueFn W C) :
    Option (List (List OffchainPublicKey × PathId × C)) :=
  if length = 0 then some []
  else
    match get_by_left s.indices source with
    | none => some []
    | some start =>
      match get_by_left s.indices destination with
      | none => some []
      | some dest => do
        let paths ← s.find_paths sh rng start {dest} length take_count value
        return paths.map fun (nodes, slots, cost) => (nodes.dropLast, slots, cost)

/-- The paths from a node to any other. -/
def simple_paths_from (s : InnerGraph G M) (source : OffchainPublicKey) (length : UInt64)
    (take_count : Option Nat) (value : ValueFn W C) :
    Option (List (List OffchainPublicKey × PathId × C)) :=
  if length = 0 then some []
  else
    match get_by_left s.indices source with
    | none => some []
    | some start =>
      let destinations := ((node_indices s.graph).filter (· ≠ start)).toFinset
      s.find_paths sh rng start destinations length take_count value

variable [Observations W]

/-- The neighbors with an edge to the node that is not known to be disconnected. -/
def connected_neighbors (s : InnerGraph G M) (me_idx : NodeIndex) : Finset NodeIndex :=
  let neighbors := (incoming s.graph me_idx).filterMap fun e => (edge s.graph e).map (·.1)
  (neighbors.filter fun neighbor =>
    let connecting := (outgoing s.graph neighbor).filterMap (edge s.graph)
    (connecting.find? (·.2.1 = me_idx)).any fun e => Observations.is_connected e.2.2 ≠ some false).toFinset

/-- The loop behind a path from the local node; its end needs a slot. -/
def close_loop (me : OffchainPublicKey) (x : List OffchainPublicKey × PathId × C) :
    Option (List OffchainPublicKey × PathId) :=
  let path_node_count := x.1.length
  if 5 ≤ path_node_count + 1 then none
  else some (x.1 ++ [me], x.2.1.set (path_node_count + 1) (path_id.encode me))

end InnerGraph

/-- The loops of so many hops; `value` is the value function for a number of edges. -/
def ChannelGraph.simple_loopback_to_self {G M W C R : Type} [StableDiGraph G OffchainPublicKey W]
    [BiHashMap M OffchainPublicKey NodeIndex] [Observations W] [LT C] [DecidableLT C]
    (sh : Shuffle R (NodeIndex × W)) (rng : R) (g : ChannelGraph G M) (hops : UInt64)
    (take_count : Option Nat) (value : UInt64 → ValueFn W C) :
    Option (List (List OffchainPublicKey × PathId)) :=
  if MIN_LOOPBACK_HOPS ≤ hops ∧ hops ≤ MAX_LOOPBACK_HOPS then
    match get_by_left g.inner.indices g.me with
    | none => some []
    | some me_idx => do
      let paths ← g.inner.find_paths sh rng me_idx (g.inner.connected_neighbors me_idx) hops take_count
        (value (hops + 1))
      return paths.filterMap (InnerGraph.close_loop g.me)
  else some []

/-! ### The prober -/

/-- The nodes of a loop between its ends. -/
def strip_loopback_endpoints (path : List OffchainPublicKey) (me : OffchainPublicKey) :
    List OffchainPublicKey :=
  let path := if path.getLast? = some me then path.dropLast else path
  if path.head? = some me then path.tail else path

/-- The intermediate path of the routing back to the local node, which has room for the hops of a
packet. -/
def loopback_routing (path : List OffchainPublicKey) : Option (List OffchainPublicKey) :=
  if path.length ≤ MAX_INTERMEDIATE_HOPS.toNat then some path else none

end Hopr.Graph
