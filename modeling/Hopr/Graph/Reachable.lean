import Hopr.Graph.KeyView
import Hopr.Library.Reachability

/-! The edges that are shown.

`connected_edges` lists all edges, and `reachable_edges` those between vertices that
a breadth-first search visits from the local node. Of the search only the outcome is
used (`LawfulBfs`); `ListGraph` has one that runs. Whatever calls were made, each
edge between keys is listed once, and is reachable exactly if edges lead from the
local node to where it begins (`edges_of_run`). -/
namespace Hopr.Graph
open StableDiGraph BiHashMap

/-- `Bfs` and the indices of all edges. -/
class Bfs (G : Type) where
  edge_indices : G → List EdgeIndex
  /-- What `next` yields, one after the other. -/
  visits : G → NodeIndex → List NodeIndex

/-- An edge leads from one vertex to the other. -/
def StableDiGraph.Adjacent {G N E : Type} [StableDiGraph G N E] (g : G) (a b : NodeIndex) : Prop :=
  ∃ e w, edge g e = some (a, b, w)

class LawfulBfs (G : Type) {N E : outParam Type} [StableDiGraph G N E] [Bfs G] : Prop where
  mem_edge_indices : ∀ {g : G} {e}, e ∈ Bfs.edge_indices g ↔ ∃ x, edge g e = some x
  nodup_edge_indices : ∀ g : G, (Bfs.edge_indices g).Nodup
  mem_visits : ∀ {g : G} {i j}, Occupied g i → (∀ {e a b w}, edge g e = some (a, b, w) → Occupied g b) →
    (j ∈ Bfs.visits g i ↔ Relation.ReflTransGen (Adjacent g) i j)

namespace ListGraph
variable {N E : Type}

def neighbors (g : ListGraph N E) (a : NodeIndex) : List NodeIndex :=
  (outgoing g a).filterMap fun e => (g.edge e).map (·.2.1)

theorem mem_neighbors {g : ListGraph N E} {a b : NodeIndex} : b ∈ g.neighbors a ↔ Adjacent g a b := by
  unfold neighbors
  rw [List.mem_filterMap]
  constructor
  · intro ⟨e, he, hb⟩
    obtain ⟨b', w, he⟩ := LawfulStableDiGraph.mem_outgoing.mp he
    obtain ⟨x, hx, rfl⟩ := Option.map_eq_some_iff.mp hb
    cases he.symm.trans hx
    exact ⟨e, w, he⟩
  · intro ⟨e, w, he⟩
    exact ⟨e, LawfulStableDiGraph.mem_outgoing.mpr ⟨b, w, he⟩, by rw [show g.edge e = _ from he]; rfl⟩

instance bfs : Bfs (ListGraph N E) where
  edge_indices g := (g.edges_with fun _ => true).reverse
  visits g i := Library.Search.search g.neighbors (node_count g) i

instance lawfulBfs : LawfulBfs (ListGraph N E) where
  mem_edge_indices {g e} := by
    rw [Bfs.edge_indices, bfs, List.mem_reverse, mem_edges_with]
    simp only [and_true]
    exact Iff.rfl
  nodup_edge_indices g := List.nodup_reverse.mpr (nodup_edges_with g _)
  mem_visits {g i j} hi hends := by
    have hadjacent : (fun a b => b ∈ g.neighbors a) = Adjacent g := by
      funext a b
      exact propext mem_neighbors
    rw [← hadjacent]
    apply Library.Search.mem_search (LawfulStableDiGraph.mem_node_indices.mpr hi)
    intro a _ b hb
    obtain ⟨e, w, he⟩ := mem_neighbors.mp hb
    exact LawfulStableDiGraph.mem_node_indices.mpr (hends he)

end ListGraph

namespace ChannelGraph
variable {G M W : Type} [StableDiGraph G OffchainPublicKey W] [Bfs G]

/-- An edge with the keys of its ends. -/
def shown (g : ChannelGraph G M) (ei : EdgeIndex) : Option (OffchainPublicKey × OffchainPublicKey × W) := do
  let (src_idx, dst_idx, obs) ← StableDiGraph.edge g.inner.graph ei
  let src ← node_weight g.inner.graph src_idx
  let dst ← node_weight g.inner.graph dst_idx
  return (src, dst, obs)

def connected_edges (g : ChannelGraph G M) : List (OffchainPublicKey × OffchainPublicKey × W) :=
  (Bfs.edge_indices g.inner.graph).filterMap g.shown

variable [BiHashMap M OffchainPublicKey NodeIndex]

def reachable_edges (g : ChannelGraph G M) : List (OffchainPublicKey × OffchainPublicKey × W) :=
  match get_by_left g.inner.indices g.me with
  | none => []
  | some me_idx =>
    let reachable := Bfs.visits g.inner.graph me_idx
    (Bfs.edge_indices g.inner.graph).filterMap fun ei => do
      let (src_idx, dst_idx, _) ← StableDiGraph.edge g.inner.graph ei
      if src_idx ∉ reachable ∨ dst_idx ∉ reachable then none else g.shown ei

end ChannelGraph

/-- Edges lead from the node to the other. -/
def KeyGraph.Reaches {W : Type} (k : KeyGraph W) (key key' : OffchainPublicKey) : Prop :=
  key ∈ k.nodes ∧ Relation.ReflTransGen (fun src dest => (k.edge src dest).isSome = true) key key'

namespace Reachable
open Graph.Representation KeyView

section Edges
variable {G M W : Type} [StableDiGraph G OffchainPublicKey W] [BiHashMap M OffchainPublicKey NodeIndex]
  {g : ChannelGraph G M}

theorem shown_iff (h : Represented g.inner) {ei : EdgeIndex} {src dest : OffchainPublicKey} {w : W} :
    g.shown ei = some (src, dest, w) ↔ ∃ a b, get_by_left g.inner.indices src = some a ∧
      get_by_left g.inner.indices dest = some b ∧ StableDiGraph.edge g.inner.graph ei = some (a, b, w) := by
  have hkey : ∀ {i key}, InUse g.inner i → node_weight g.inner.graph i = some key →
      get_by_left g.inner.indices key = some i := by
    intro i key ⟨key', hkey'⟩ hweight
    cases (h.weight hkey').symm.trans hweight
    exact hkey'
  constructor
  · intro hshown
    obtain ⟨⟨a, b, w'⟩, he, hshown⟩ := Option.bind_eq_some_iff.mp hshown
    obtain ⟨src', hsrc, hshown⟩ := Option.bind_eq_some_iff.mp hshown
    obtain ⟨dest', hdest, hshown⟩ := Option.bind_eq_some_iff.mp hshown
    cases hshown
    exact ⟨a, b, hkey (h.ends he).1 hsrc, hkey (h.ends he).2 hdest, he⟩
  · intro ⟨a, b, ha, hb, he⟩
    simp only [ChannelGraph.shown, he, Option.bind_eq_bind, Option.bind_some, h.weight ha, h.weight hb]
    rfl

/-- Edges lead from the vertex of a key to those of the keys it reaches. -/
theorem adjacent_iff [LawfulStableDiGraph G] (h : Represented g.inner) {key : OffchainPublicKey} {i j : NodeIndex}
    (hi : get_by_left g.inner.indices key = some i) :
    Relation.ReflTransGen (Adjacent g.inner.graph) i j ↔
      ∃ key', get_by_left g.inner.indices key' = some j ∧ (view g.inner).Reaches key key' := by
  constructor
  · intro hreach
    induction hreach with
    | refl => exact ⟨key, hi, ⟨i, hi⟩, .refl⟩
    | tail _ hlast ih =>
      obtain ⟨key', hj, hreach⟩ := ih
      obtain ⟨e, w, he⟩ := hlast
      obtain ⟨key'', hl⟩ := (h.ends he).2
      refine ⟨key'', hl, hreach.1, hreach.2.tail ?_⟩
      exact Option.isSome_iff_exists.mpr ⟨w, (view_edge_iff h).mpr ⟨e, _, _, hj, hl, he⟩⟩
  · rintro ⟨key', hj, _, hreach⟩
    induction hreach generalizing j with
    | refl =>
      cases hi.symm.trans hj
      exact .refl
    | tail _ hlast ih =>
      obtain ⟨w, hw⟩ := Option.isSome_iff_exists.mp hlast
      obtain ⟨e, a, b, ha, hb, he⟩ := (view_edge_iff h).mp hw
      cases hb.symm.trans hj
      exact (ih ha).tail ⟨e, w, he⟩

variable [Bfs G]

/-- No two edges are shown between the same keys. -/
theorem nodup_connected_edges [LawfulBfs G] (h : Represented g.inner) :
    (g.connected_edges.map fun x => (x.1, x.2.1)).Nodup := by
  rw [ChannelGraph.connected_edges, List.Nodup, List.pairwise_map, List.pairwise_filterMap]
  refine (LawfulBfs.nodup_edge_indices g.inner.graph).imp ?_
  rintro ei ei' hne ⟨src, dest, w⟩ hshown ⟨src', dest', w'⟩ hshown' heq
  cases heq
  obtain ⟨a, b, ha, hb, he⟩ := (shown_iff h).mp hshown
  obtain ⟨a', b', ha', hb', he'⟩ := (shown_iff h).mp hshown'
  cases ha.symm.trans ha'
  cases hb.symm.trans hb'
  exact hne (h.apart he he')

theorem sublist_connected_edges (g : ChannelGraph G M) : g.reachable_edges.Sublist g.connected_edges := by
  unfold ChannelGraph.reachable_edges ChannelGraph.connected_edges
  split
  · exact List.nil_sublist _
  · next me_idx _ =>
    dsimp only
    induction Bfs.edge_indices g.inner.graph with
    | nil => exact .slnil
    | cons ei rest ih =>
      rw [List.filterMap_cons, List.filterMap_cons]
      cases he : StableDiGraph.edge g.inner.graph ei with
      | none =>
        have hnone : g.shown ei = none := by
          rw [ChannelGraph.shown, he]
          rfl
        rw [hnone]
        exact ih
      | some x =>
        rw [Option.bind_eq_bind, Option.bind_some]
        split
        · next hskipped =>
          cases g.shown ei with
          | none => exact ih
          | some edge => exact ih.cons edge
        · next edge hkept =>
          split at hkept
          · cases hkept
          · rw [hkept]
            exact ih.cons_cons edge

variable [LawfulStableDiGraph G] [LawfulBfs G]

theorem mem_connected_edges (h : Represented g.inner) {src dest : OffchainPublicKey} {w : W} :
    (src, dest, w) ∈ g.connected_edges ↔ (view g.inner).edge src dest = some w := by
  rw [ChannelGraph.connected_edges, List.mem_filterMap, view_edge_iff h]
  constructor
  · intro ⟨ei, _, hshown⟩
    obtain ⟨a, b, hjoins⟩ := (shown_iff h).mp hshown
    exact ⟨ei, a, b, hjoins⟩
  · intro ⟨ei, a, b, ha, hb, he⟩
    exact ⟨ei, LawfulBfs.mem_edge_indices.mpr ⟨_, he⟩, (shown_iff h).mpr ⟨a, b, ha, hb, he⟩⟩

variable [LawfulBiHashMap M]

theorem mem_reachable_edges (h : Represented g.inner) {src dest : OffchainPublicKey} {w : W} :
    (src, dest, w) ∈ g.reachable_edges ↔ (view g.inner).edge src dest = some w ∧ (view g.inner).Reaches g.me src := by
  unfold ChannelGraph.reachable_edges
  split
  · next hnone =>
    refine ⟨fun hmem => (nomatch hmem), ?_⟩
    rintro ⟨_, ⟨i, hi⟩, _⟩
    cases hnone.symm.trans hi
  · next me_idx hme =>
    have hvisits : ∀ {j}, j ∈ Bfs.visits g.inner.graph me_idx ↔
        ∃ key, get_by_left g.inner.indices key = some j ∧ (view g.inner).Reaches g.me key := by
      intro j
      rw [← adjacent_iff h hme]
      apply LawfulBfs.mem_visits (h.occupied hme)
      intro e a b w he
      obtain ⟨key, hkey⟩ := (h.ends he).2
      exact h.occupied hkey
    rw [List.mem_filterMap]
    constructor
    · intro ⟨ei, _, hshown⟩
      obtain ⟨⟨a, b, w'⟩, he, hshown⟩ := Option.bind_eq_some_iff.mp hshown
      dsimp only at hshown
      split at hshown
      · cases hshown
      · next hreached =>
        obtain ⟨a', b', ha, hb, he'⟩ := (shown_iff h).mp hshown
        cases he.symm.trans he'
        rw [not_or, not_not, not_not] at hreached
        obtain ⟨key, hkey, hreach⟩ := hvisits.mp hreached.1
        cases left_injective hkey ha
        exact ⟨(view_edge_iff h).mpr ⟨ei, a, b, ha, hb, he⟩, hreach⟩
    · intro ⟨hw, hreach⟩
      obtain ⟨ei, a, b, ha, hb, he⟩ := (view_edge_iff h).mp hw
      refine ⟨ei, LawfulBfs.mem_edge_indices.mpr ⟨_, he⟩, ?_⟩
      have hstep : (view g.inner).Reaches g.me dest :=
        ⟨hreach.1, hreach.2.tail (Option.isSome_iff_exists.mpr ⟨w, hw⟩)⟩
      have hboth : ¬ (a ∉ Bfs.visits g.inner.graph me_idx ∨ b ∉ Bfs.visits g.inner.graph me_idx) := by
        rw [not_or, not_not, not_not]
        exact ⟨hvisits.mpr ⟨src, ha, hreach⟩, hvisits.mpr ⟨dest, hb, hstep⟩⟩
      rw [he, Option.bind_eq_bind, Option.bind_some]
      dsimp only
      rw [if_neg hboth]
      exact (shown_iff h).mpr ⟨a, b, ha, hb, he⟩

variable {F : Type} [Observations W] [NodeHealth W F] [LawfulNodeHealth W] [LinearOrder F] [Zero F] [One F]

/-- **Whatever calls were made, the edges that are shown are those of the graph of keys that the calls lead to,
each pair of keys once**; the reachable ones are those that begin where edges lead from the local node. -/
theorem edges_of_run (me : OffchainPublicKey) (max_plausible_loopback_rtt : Nat) (calls : List (Call W F)) :
    let g := (ChannelGraph.new me max_plausible_loopback_rtt : ChannelGraph G M).takes calls
    let k := (KeyGraph.new me).takes me max_plausible_loopback_rtt calls
    (∀ src dest w, ((src, dest, w) ∈ g.connected_edges ↔ k.edge src dest = some w) ∧
      ((src, dest, w) ∈ g.reachable_edges ↔ k.edge src dest = some w ∧ k.Reaches me src)) ∧
    (g.connected_edges.map fun x => (x.1, x.2.1)).Nodup ∧ (g.reachable_edges.map fun x => (x.1, x.2.1)).Nodup ∧
    g.reachable_edges.Sublist g.connected_edges := by
  intro g k
  have hnew : Represented (ChannelGraph.new me max_plausible_loopback_rtt : ChannelGraph G M).inner :=
    represented_new me
  have hg : Represented g.inner := ChannelGraph.represented_takes hnew calls
  have hme : g.me = me := (config_takes _ calls).1
  have hk : view g.inner = k := by
    refine (view_takes hnew calls).trans ?_
    rw [ChannelGraph.new, view_new]
  have hsub := sublist_connected_edges g
  refine ⟨?_, nodup_connected_edges hg, (nodup_connected_edges hg).sublist (hsub.map _), hsub⟩
  intro src dest w
  rw [← hk, ← hme]
  exact ⟨mem_connected_edges hg, mem_reachable_edges hg⟩

end Edges

def apart : List (Call (Weight.Observations Weight.RunningMean Weight.CountedRatio ℚ) ℚ) :=
  [.write (.upsert_edge (.of 1) (.of 2) id), .write (.upsert_edge (.of 3) (.of 2) id)]

/-- Of two edges one begins where none leads. -/
theorem edges_of_run_apart : ¬ ((KeyGraph.new (.of 1)).takes (.of 1) 0 apart).Reaches (.of 1) (.of 3) := by
  obtain ⟨g, hg⟩ : ∃ g, g = (ChannelGraph.new (.of 1) 0 : ChannelGraph
      (ListGraph OffchainPublicKey (Weight.Observations Weight.RunningMean Weight.CountedRatio ℚ))
      (PairMap OffchainPublicKey NodeIndex)).takes apart :=
    ⟨_, rfl⟩
  have hrun := edges_of_run (G := ListGraph OffchainPublicKey
    (Weight.Observations Weight.RunningMean Weight.CountedRatio ℚ)) (M := PairMap OffchainPublicKey NodeIndex)
    (.of 1) 0 apart
  have hshown : (.of 3, .of 2) ∈ g.connected_edges.map fun x => (x.1, x.2.1) := by
    rw [hg]
    decide +kernel
  have hunreached : (.of 3, .of 2) ∉ g.reachable_edges.map fun x => (x.1, x.2.1) := by
    rw [hg]
    decide +kernel
  obtain ⟨⟨src, dest, w⟩, hmem, heq⟩ := List.mem_map.mp hshown
  cases heq
  rw [hg] at hmem hunreached
  intro hreach
  apply hunreached
  have hedge := (hrun.1 (.of 3) (.of 2) w).1.mp hmem
  exact List.mem_map.mpr ⟨_, (hrun.1 (.of 3) (.of 2) w).2.mpr ⟨hedge, hreach⟩, rfl⟩

end Reachable

end Hopr.Graph
