import Mathlib.Data.List.AList
import Hopr.Graph.BiHashMap
import Hopr.Graph.Observations
import Hopr.Graph.PathId
import Hopr.Graph.StableDiGraph

/-! The channel graph.

`InnerGraph` keeps four structures beside each other: the graph, whose vertices
are keys; the map between keys and vertices; and the slots, which say for each
slot of a path identifier which vertices claim it. A node that is removed loses
its edges, its place in the map and its claim, and its vertex stays behind, so
that its index is not given to another node. -/
namespace Hopr.Graph
open StableDiGraph BiHashMap

structure InnerGraph (G M : Type) where
  graph : G
  indices : M
  slots : AList fun _ : UInt64 => List NodeIndex

inductive ChannelGraphError where
  | PublicKeyNodeNotFound (key : OffchainPublicKey)
deriving DecidableEq

namespace InnerGraph
variable {G M W : Type}

def claim_slot (key : OffchainPublicKey) (idx : NodeIndex) (s : InnerGraph G M) : InnerGraph G M :=
  let claimants := (s.slots.lookup (path_id.encode key)).getD []
  let claimed := if idx ∈ claimants then claimants else claimants ++ [idx]
  {s with slots := s.slots.insert (path_id.encode key) claimed}

/-- The entry goes with its last claimant. -/
def release_slot (key : OffchainPublicKey) (idx : NodeIndex) (s : InnerGraph G M) : InnerGraph G M :=
  match s.slots.lookup (path_id.encode key) with
  | some claimants =>
    let held := claimants.filter (· ≠ idx)
    let slots := s.slots.insert (path_id.encode key) held
    {s with slots := if held = [] then slots.erase (path_id.encode key) else slots}
  | none => s

/-- Only the entry of the key's slot is new, and it has the index as well. -/
theorem lookup_claim_slot (s : InnerGraph G M) (key : OffchainPublicKey) (idx : NodeIndex)
    (hidx : idx ∉ (s.slots.lookup (path_id.encode key)).getD []) (slot : UInt64) :
    (claim_slot key idx s).slots.lookup slot = if slot = path_id.encode key
      then some ((s.slots.lookup slot).getD [] ++ [idx]) else s.slots.lookup slot := by
  simp only [claim_slot, if_neg hidx]
  by_cases hslot : slot = path_id.encode key
  · rw [if_pos hslot, hslot, AList.lookup_insert]
  · rw [if_neg hslot, AList.lookup_insert_ne hslot]

/-- Only the entry of the key's slot is shorter, or gone if nothing is left of it. -/
theorem lookup_release_slot (s : InnerGraph G M) (key : OffchainPublicKey) (idx : NodeIndex)
    (slot : UInt64) : (release_slot key idx s).slots.lookup slot = if slot = path_id.encode key
      then (s.slots.lookup slot).bind fun held =>
        if held.filter (· ≠ idx) = [] then none else some (held.filter (· ≠ idx))
      else s.slots.lookup slot := by
  unfold release_slot
  by_cases hslot : slot = path_id.encode key
  · rw [if_pos hslot, ← hslot]
    cases hheld : s.slots.lookup slot with
    | none => exact hheld
    | some held =>
      show AList.lookup slot (if _ then _ else _) = _
      rw [Option.bind_some]
      split
      · exact AList.lookup_erase ..
      · exact AList.lookup_insert ..
  · rw [if_neg hslot]
    cases s.slots.lookup (path_id.encode key) with
    | none => rfl
    | some held =>
      show AList.lookup slot (if _ then _ else _) = _
      split
      · rw [AList.lookup_erase_ne hslot, AList.lookup_insert_ne hslot]
      · exact AList.lookup_insert_ne hslot

theorem graph_release_slot (key : OffchainPublicKey) (idx : NodeIndex) (s : InnerGraph G M) :
    (release_slot key idx s).graph = s.graph := by
  unfold release_slot
  split <;> rfl

theorem indices_release_slot (key : OffchainPublicKey) (idx : NodeIndex) (s : InnerGraph G M) :
    (release_slot key idx s).indices = s.indices := by
  unfold release_slot
  split <;> rfl

/-- `path_id::resolve` -/
def resolve (s : InnerGraph G M) (slot : UInt64) : Option NodeIndex :=
  if slot = 0 then none
  else
    match s.slots.lookup slot with
    | some [only] => some only
    | _ => none

variable [StableDiGraph G OffchainPublicKey W] [BiHashMap M OffchainPublicKey NodeIndex]

/-- The key has a vertex. -/
def Mapped (s : InnerGraph G M) (key : OffchainPublicKey) : Prop :=
  ∃ i, get_by_left s.indices key = some i

/-- The inner graph of a new channel graph: the local node alone. -/
def new (me : OffchainPublicKey) : InnerGraph G M :=
  let (idx, graph) := StableDiGraph.add_node me (StableDiGraph.new : G)
  { graph
    indices := BiHashMap.insert me idx BiHashMap.empty
    slots := (∅ : AList fun _ : UInt64 => List NodeIndex).insert (path_id.encode me) [idx] }

def contains_node (key : OffchainPublicKey) (s : InnerGraph G M) : Bool :=
  (get_by_left s.indices key).isSome

def path_slot (key : OffchainPublicKey) (s : InnerGraph G M) : Option UInt64 :=
  if s.contains_node key then some (path_id.encode key) else none

def add_node (key : OffchainPublicKey) (s : InnerGraph G M) : InnerGraph G M :=
  if (get_by_left s.indices key).isSome then s
  else
    let (idx, graph) := StableDiGraph.add_node key s.graph
    claim_slot key idx {s with graph, indices := BiHashMap.insert key idx s.indices}

/-- The vertex, the place in the map and the claim of a node that is added. -/
theorem add_node_new {s : InnerGraph G M} {key : OffchainPublicKey}
    (hkey : get_by_left s.indices key = none) : s.add_node key =
      claim_slot key (StableDiGraph.add_node key s.graph).1 {s with
        graph := (StableDiGraph.add_node key s.graph).2
        indices := BiHashMap.insert key (StableDiGraph.add_node key s.graph).1 s.indices} := by
  simp only [add_node, hkey, Option.isSome, Bool.false_eq_true, if_false]

theorem add_node_present {s : InnerGraph G M} {key : OffchainPublicKey} {i : NodeIndex}
    (hkey : get_by_left s.indices key = some i) : s.add_node key = s := by
  simp only [add_node, hkey, Option.isSome, if_true]

def remove_node (key : OffchainPublicKey) (s : InnerGraph G M) : InnerGraph G M :=
  match get_by_left s.indices key with
  | some idx =>
    let s := release_slot key idx {s with indices := BiHashMap.remove_by_left key s.indices}
    let incident := outgoing s.graph idx ++ incoming s.graph idx
    {s with graph := remove_edges incident s.graph}
  | none => s

theorem remove_node_present {s : InnerGraph G M} {key : OffchainPublicKey} {i : NodeIndex}
    (hkey : get_by_left s.indices key = some i) : s.remove_node key =
      {release_slot key i {s with indices := BiHashMap.remove_by_left key s.indices} with
        graph := remove_edges (outgoing s.graph i ++ incoming s.graph i) s.graph} := by
  have hgraph := graph_release_slot key i {s with indices := BiHashMap.remove_by_left key s.indices}
  simp only [remove_node, hkey, hgraph]

def add_edge [Observations W] (src dest : OffchainPublicKey) (s : InnerGraph G M) :
    Except ChannelGraphError (InnerGraph G M) :=
  match get_by_left s.indices src with
  | none => .error (.PublicKeyNodeNotFound src)
  | some src_idx =>
    match get_by_left s.indices dest with
    | none => .error (.PublicKeyNodeNotFound dest)
    | some dest_idx =>
      match find_edge s.graph src_idx dest_idx with
      | some _ => .ok s
      | none =>
        .ok {s with graph := (StableDiGraph.add_edge src_idx dest_idx Observations.default s.graph).2}

def remove_edge (src dest : OffchainPublicKey) (s : InnerGraph G M) : InnerGraph G M :=
  match get_by_left s.indices src, get_by_left s.indices dest with
  | some src_idx, some dest_idx =>
    match find_edge s.graph src_idx dest_idx with
    | some edge_idx => {s with graph := StableDiGraph.remove_edge edge_idx s.graph}
    | none => s
  | _, _ => s

/-- The vertex of a key of `upsert_edge`, which adds it if it is missing. -/
def upsert_node (key : OffchainPublicKey) (s : InnerGraph G M) : NodeIndex × InnerGraph G M :=
  match get_by_left s.indices key with
  | some idx => (idx, s)
  | none =>
    let (idx, graph) := StableDiGraph.add_node key s.graph
    (idx, claim_slot key idx {s with graph, indices := BiHashMap.insert key idx s.indices})

def upsert_edge [Observations W] (src dest : OffchainPublicKey) (f : W → W) (s : InnerGraph G M) :
    InnerGraph G M :=
  let (src_idx, s) := upsert_node src s
  let (dest_idx, s) := upsert_node dest s
  match find_edge s.graph src_idx dest_idx with
  | some edge_idx => {s with graph := edge_weight_mut edge_idx f s.graph}
  | none =>
    let (edge_idx, graph) := StableDiGraph.add_edge src_idx dest_idx Observations.default s.graph
    {s with graph := edge_weight_mut edge_idx f graph}

end InnerGraph

structure ChannelGraph (G M : Type) where
  me : OffchainPublicKey
  /-- In nanoseconds. -/
  max_plausible_loopback_rtt : Nat
  inner : InnerGraph G M

/-- `with_edge_params` -/
def ChannelGraph.new {G M W : Type} [StableDiGraph G OffchainPublicKey W]
    [BiHashMap M OffchainPublicKey NodeIndex] (me : OffchainPublicKey)
    (max_plausible_loopback_rtt : Nat) : ChannelGraph G M :=
  ⟨me, max_plausible_loopback_rtt, InnerGraph.new me⟩

end Hopr.Graph
