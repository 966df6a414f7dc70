import Mathlib.Data.Set.Insert
import Hopr.Graph.NodeHealth
import Hopr.Graph.Tomography

/-! The channel graph by its keys.

What the channel graph stands for, without vertices, indices and tables of slots: a
set of keys and, from one of them to another, the weight of the edge if there is one.
Every change of an edge is an `alter`. A slot belongs to a node if no other node has
it (`Owns`), and a report names the edges that lead over the owners of its slots
(`Names`), or else none. -/
namespace Hopr.Graph
open Resolution

structure KeyGraph (W : Type) where
  nodes : Set OffchainPublicKey
  edge : OffchainPublicKey → OffchainPublicKey → Option W
  ends : ∀ {src dest w}, edge src dest = some w → src ∈ nodes ∧ dest ∈ nodes

/-- From one key to another. -/
abbrev Hop := OffchainPublicKey × OffchainPublicKey

namespace KeyGraph
variable {W F : Type}

theorem ext {k k' : KeyGraph W} (hnodes : k.nodes = k'.nodes)
    (hedge : ∀ src dest, k.edge src dest = k'.edge src dest) : k = k' := by
  obtain ⟨nodes, edge, _⟩ := k
  obtain ⟨nodes', edge', _⟩ := k'
  obtain rfl : nodes = nodes' := hnodes
  obtain rfl : edge = edge' := funext fun src => funext (hedge src)
  rfl

/-- The local node alone. -/
def new (me : OffchainPublicKey) : KeyGraph W := ⟨{me}, fun _ _ => none, fun h => (nomatch h)⟩

def add_node (key : OffchainPublicKey) (k : KeyGraph W) : KeyGraph W :=
  ⟨insert key k.nodes, k.edge, fun h => ⟨.inr (k.ends h).1, .inr (k.ends h).2⟩⟩

/-- Every edge of the node goes with it. -/
def remove_node (key : OffchainPublicKey) (k : KeyGraph W) : KeyGraph W where
  nodes := k.nodes \ {key}
  edge src dest := if src = key ∨ dest = key then none else k.edge src dest
  ends := by
    intro src dest w h
    split at h
    · cases h
    · next hne =>
      rw [not_or] at hne
      exact ⟨⟨(k.ends h).1, hne.1⟩, (k.ends h).2, hne.2⟩

open Classical in
/-- The edge from one node to another is added, changed or removed. -/
noncomputable def alter (src dest : OffchainPublicKey) (f : Option W → Option W) (k : KeyGraph W) : KeyGraph W where
  nodes := k.nodes
  edge src' dest' :=
    if (src' = src ∧ dest' = dest) ∧ src ∈ k.nodes ∧ dest ∈ k.nodes then f (k.edge src dest) else k.edge src' dest'
  ends := by
    intro src' dest' w h
    split at h
    · next hsame =>
      obtain ⟨⟨rfl, rfl⟩, hends⟩ := hsame
      exact hends
    · exact k.ends h

theorem alter_absent {k : KeyGraph W} {src dest : OffchainPublicKey} (h : ¬ (src ∈ k.nodes ∧ dest ∈ k.nodes))
    (f : Option W → Option W) : k.alter src dest f = k :=
  ext rfl fun _ _ => if_neg fun hends => h hends.2

theorem alter_congr {k : KeyGraph W} {src dest : OffchainPublicKey} {f f' : Option W → Option W}
    (h : f (k.edge src dest) = f' (k.edge src dest)) : k.alter src dest f = k.alter src dest f' := by
  refine ext (by rfl) fun src' dest' => ?_
  simp only [alter, h]

theorem alter_same {k : KeyGraph W} {src dest : OffchainPublicKey} {f : Option W → Option W}
    (h : f (k.edge src dest) = k.edge src dest) : k.alter src dest f = k := by
  refine ext (by rfl) fun src' dest' => ?_
  simp only [alter, h]
  split
  · next hsame => rw [hsame.1.1, hsame.1.2]
  · rfl

theorem alter_alter (k : KeyGraph W) (src dest : OffchainPublicKey) (f f' : Option W → Option W) :
    (k.alter src dest f).alter src dest f' = k.alter src dest (f' ∘ f) := by
  by_cases hends : src ∈ k.nodes ∧ dest ∈ k.nodes
  · refine ext (by rfl) fun src' dest' => ?_
    simp only [alter, hends, and_self, and_true, if_true]
    split
    · rfl
    · rfl
  · rw [alter_absent hends f, alter_absent hends f', alter_absent hends]

/-- Every edge into a node is judged. -/
def judge [NodeHealth W F] [LinearOrder F] [Zero F] [One F] (node : OffchainPublicKey) (health : F)
    (k : KeyGraph W) : KeyGraph W where
  nodes := k.nodes
  edge src dest :=
    if dest = node then (k.edge src dest).map (NodeHealth.set_health (kept_health health)) else k.edge src dest
  ends := by
    intro src dest w h
    split at h
    · obtain ⟨w', hw, _⟩ := Option.map_eq_some_iff.mp h
      exact k.ends hw
    · exact k.ends h

/-! ### The paths of reports -/

/-- Of all nodes this one has the slot, and no other. -/
def Owns (k : KeyGraph W) (slot : UInt64) (key : OffchainPublicKey) : Prop :=
  key ∈ k.nodes ∧ path_id.encode key = slot ∧ ∀ key' ∈ k.nodes, path_id.encode key' = slot → key' = key

/-- The edges that lead over the owners of the slots, one after the other. -/
def Walks (k : KeyGraph W) (slots : List UInt64) (hops : List Hop) : Prop :=
  ∃ keys, List.Forall₂ k.Owns slots keys ∧ hops = keys.zip keys.tail ∧ ∀ hop ∈ hops, (k.edge hop.1 hop.2).isSome

/-- A loop is from the local node over others and back; a round trip leads to a replier and from it back. -/
def Names (k : KeyGraph W) (me : OffchainPublicKey) : MeasurableEdge → List Hop → Prop
  | .Surb paths .., hops => ∃ replier before between forth back, Meets me paths replier before between ∧
      k.Walks (before ++ [replier]) forth ∧ k.Walks (replier :: between ++ [path_id.encode me]) back ∧
      hops = forth ++ back
  | .Loopback path _, hops | .ProbeLoopbackTimeout path, hops => ∃ between, LoopBytes me path between ∧
      k.Walks (path_id.encode me :: between ++ [path_id.encode me]) hops
  | _, _ => False

open Classical in
/-- The edges that a report names; none if there is no such path, or no local node. -/
noncomputable def named (k : KeyGraph W) (me : OffchainPublicKey) (update : MeasurableEdge) : List Hop :=
  if h : me ∈ k.nodes ∧ ∃ hops, k.Names me update hops then h.2.choose else []

/-! ### Telemetry -/

variable [Observations W]

noncomputable def add_edge (src dest : OffchainPublicKey) : KeyGraph W → KeyGraph W :=
  alter src dest fun w => some (w.getD Observations.default)

open Classical in
/-- What the caller of `add_edge` is told: which of the two nodes is missing, the source before the other. -/
noncomputable def added_edge (src dest : OffchainPublicKey) (k : KeyGraph W) : Except ChannelGraphError Unit :=
  if src ∉ k.nodes then .error (.PublicKeyNodeNotFound src)
  else if dest ∉ k.nodes then .error (.PublicKeyNodeNotFound dest)
  else .ok ()

noncomputable def remove_edge (src dest : OffchainPublicKey) : KeyGraph W → KeyGraph W :=
  alter src dest fun _ => none

noncomputable def upsert_edge (src dest : OffchainPublicKey) (f : W → W) (k : KeyGraph W) : KeyGraph W :=
  alter src dest (fun w => some (f (w.getD Observations.default))) ((k.add_node src).add_node dest)

/-- Both directions of the connection to a peer. -/
noncomputable def upsert_both (me peer : OffchainPublicKey) (f : W → W) (k : KeyGraph W) : KeyGraph W :=
  (k.upsert_edge me peer f).upsert_edge peer me f

/-- A measurement is recorded at each of the edges. -/
noncomputable def record_at (now_ms : Nat) (measurement : EdgeWeightType) (hops : List Hop) (k : KeyGraph W) :
    KeyGraph W :=
  hops.foldl (fun k hop => k.alter hop.1 hop.2 (Option.map (Observations.record now_ms measurement))) k

/-- What is known of the time that an edge takes. -/
def latency (k : KeyGraph W) (hop : Hop) : Option Nat :=
  (k.edge hop.1 hop.2).bind fun w => (Observations.intermediate_latency w).or (Observations.immediate_latency w)

/-- What is left of a round trip over a loop when all that is known of the other edges is taken off, or if
more is known of them what the edge has from before. -/
def attributed (k : KeyGraph W) (hops : List Hop) (target rtt : Nat) : Option Nat :=
  let known := ((hops.eraseIdx target).filterMap k.latency).sum
  if known ≤ rtt then some (rtt - known)
  else hops[target]?.bind fun hop => (k.edge hop.1 hop.2).bind Observations.intermediate_latency

noncomputable def record_edge (me : OffchainPublicKey) (max_plausible_loopback_rtt now_ms : Nat) (k : KeyGraph W)
    (update : MeasurableEdge) : KeyGraph W :=
  let hops := k.named me update
  let target := hops.length - 2
  match update with
  | .Surb _ timestamp expected observed =>
    if timestamp ≤ now_ms ∧ now_ms - timestamp ≤ surb_window then
      k.record_at now_ms (.SurbRoundTrips expected observed) hops
    else k
  | .Loopback _ timestamp =>
    let rtt := Tomography.round_trip now_ms timestamp
    if timestamp ≤ now_ms ∧ rtt ≤ max_plausible_loopback_rtt then
      match k.attributed hops target rtt with
      | some latency => k.record_at now_ms (.Intermediate (some latency)) hops[target]?.toList
      | none => k
    else k
  | .ProbeLoopbackTimeout _ => k.record_at now_ms (.Intermediate none) hops[target]?.toList
  | .Neighbor peer rtt => k.upsert_both me peer fun w =>
      Observations.record now_ms (.Immediate (some (rtt / 2))) (Observations.record now_ms (.Connected true) w)
  | .ProbeNeighborTimeout peer => k.upsert_both me peer (Observations.record now_ms (.Immediate none))
  | .Balance src dest balance => k.upsert_edge src dest (Observations.record now_ms (.Balance balance))
  | .ConnectionStatus peer connected => k.upsert_both me peer (Observations.record now_ms (.Connected connected))

variable [NodeHealth W F] [LinearOrder F] [Zero F] [One F]

noncomputable def take (me : OffchainPublicKey) (max_plausible_loopback_rtt : Nat) (k : KeyGraph W) :
    Call W F → KeyGraph W
  | .write (.add_node key) => k.add_node key
  | .write (.remove_node key) => k.remove_node key
  | .write (.add_edge src dest) => k.add_edge src dest
  | .write (.remove_edge src dest) => k.remove_edge src dest
  | .write (.upsert_edge src dest f) => k.upsert_edge src dest f
  | .write (.record_edge now_ms update) => k.record_edge me max_plausible_loopback_rtt now_ms update
  | .record_nodes_health healths => healths.foldl (fun k (node, health) => k.judge node health) k

noncomputable def takes (me : OffchainPublicKey) (max_plausible_loopback_rtt : Nat) (k : KeyGraph W)
    (calls : List (Call W F)) : KeyGraph W :=
  calls.foldl (take me max_plausible_loopback_rtt) k

end KeyGraph

end Hopr.Graph
