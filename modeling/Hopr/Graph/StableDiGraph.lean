import Mathlib.Algebra.Group.Nat.Defs
import Mathlib.Data.List.Basic

/-! The directed graph that the channel graph is stored in.

`StableDiGraph` is what is used of the graph library's stable graph, and
`LawfulStableDiGraph` its documented behaviour: a vertex or edge that was added
keeps its index while others come and go, and a new vertex gets an index that no
vertex has. Nodes are joined and edges weighed only where they exist, so the
laws of `add_edge` ask for both of its vertices.

`Logged` keeps, beside a graph, the index of every vertex that was ever added. -/
namespace Hopr.Graph

structure NodeIndex where
  index : Nat
deriving DecidableEq

structure EdgeIndex where
  index : Nat
deriving DecidableEq

/-- An edge: its source, its target and its weight. -/
abbrev Edge (E : Type) := NodeIndex × NodeIndex × E

class StableDiGraph (G : Type) (N E : outParam Type) where
  new : G
  node_weight : G → NodeIndex → Option N
  /-- `edge_endpoints` and `edge_weight` of an edge. -/
  edge : G → EdgeIndex → Option (Edge E)
  find_edge : G → NodeIndex → NodeIndex → Option EdgeIndex
  /-- `edges_directed` with the outgoing edges. -/
  outgoing : G → NodeIndex → List EdgeIndex
  /-- `edges_directed` with the incoming edges. -/
  incoming : G → NodeIndex → List EdgeIndex
  node_indices : G → List NodeIndex
  add_node : N → G → NodeIndex × G
  add_edge : NodeIndex → NodeIndex → E → G → EdgeIndex × G
  remove_edge : EdgeIndex → G → G
  edge_weight_mut : EdgeIndex → (E → E) → G → G
  /-- The bytes of a collection that is being worked off with up to 16 edges in place. -/
  edges_size : Nat

namespace StableDiGraph
variable {G N E : Type} [StableDiGraph G N E]

def edge_weight (g : G) (e : EdgeIndex) : Option E := (edge g e).map (·.2.2)

/-- `node_count`, the number of vertices. -/
def node_count (g : G) : Nat := (node_indices g).length

/-- A vertex with the index is in the graph. -/
def Occupied (g : G) (i : NodeIndex) : Prop := ∃ n, node_weight g i = some n

end StableDiGraph

open StableDiGraph

class LawfulStableDiGraph (G : Type) {N E : outParam Type} [StableDiGraph G N E] : Prop where
  node_new : ∀ i, node_weight (new : G) i = none
  edge_new : ∀ e, edge (new : G) e = none
  /-- The graph's free indices are those of vertices that were removed. -/
  vacant_add_node : ∀ (n : N) (g : G), node_weight g (add_node n g).1 = none
  node_add_node : ∀ (n : N) (g : G) (i), node_weight (add_node n g).2 i =
    if i = (add_node n g).1 then some n else node_weight g i
  edge_add_node : ∀ (n : N) (g : G) (e), edge (add_node n g).2 e = edge g e
  node_add_edge : ∀ (a b) (w : E) (g : G) (i), Occupied g a → Occupied g b →
    node_weight (add_edge a b w g).2 i = node_weight g i
  vacant_add_edge : ∀ (a b) (w : E) (g : G), Occupied g a → Occupied g b →
    edge g (add_edge a b w g).1 = none
  edge_add_edge : ∀ (a b) (w : E) (g : G) (e), Occupied g a → Occupied g b →
    edge (add_edge a b w g).2 e = if e = (add_edge a b w g).1 then some (a, b, w) else edge g e
  node_remove_edge : ∀ (e) (g : G) (i), node_weight (remove_edge e g) i = node_weight g i
  edge_remove_edge : ∀ (e) (g : G) (e'), edge (remove_edge e g) e' = if e' = e then none else edge g e'
  node_edge_weight_mut : ∀ (e) (f : E → E) (g : G) (i),
    node_weight (edge_weight_mut e f g) i = node_weight g i
  edge_edge_weight_mut : ∀ (e) (f : E → E) (g : G) (e'), edge (edge_weight_mut e f g) e' =
    if e' = e then (edge g e').map fun x => (x.1, x.2.1, f x.2.2) else edge g e'
  find_edge_some : ∀ {g : G} {a b e}, find_edge g a b = some e → ∃ w, edge g e = some (a, b, w)
  find_edge_none : ∀ {g : G} {a b}, find_edge g a b = none → ∀ e w, edge g e ≠ some (a, b, w)
  mem_outgoing : ∀ {g : G} {a e}, e ∈ outgoing g a ↔ ∃ b w, edge g e = some (a, b, w)
  nodup_outgoing : ∀ (g : G) (a), (outgoing g a).Nodup
  mem_incoming : ∀ {g : G} {b e}, e ∈ incoming g b ↔ ∃ a w, edge g e = some (a, b, w)
  mem_node_indices : ∀ {g : G} {i}, i ∈ node_indices g ↔ Occupied g i
  nodup_node_indices : ∀ g : G, (node_indices g).Nodup
  /-- There is no larger type. -/
  edges_size_lt : edges_size G < 2 ^ 61

namespace StableDiGraph
variable {G N E : Type} [StableDiGraph G N E] [LawfulStableDiGraph G]

theorem Occupied.add_node {g : G} {i : NodeIndex} (h : Occupied g i) (n : N) :
    Occupied (add_node n g).2 i := by
  obtain ⟨m, hm⟩ := h
  refine ⟨m, ?_⟩
  rw [LawfulStableDiGraph.node_add_node, if_neg, hm]
  rintro rfl
  rw [LawfulStableDiGraph.vacant_add_node] at hm
  cases hm

/-- Edges are removed one after the other. -/
def remove_edges (es : List EdgeIndex) (g : G) : G := es.foldl (fun g e => remove_edge e g) g

theorem node_remove_edges (es : List EdgeIndex) (g : G) (i : NodeIndex) :
    node_weight (remove_edges es g) i = node_weight g i := by
  unfold remove_edges
  induction es generalizing g with
  | nil => rfl
  | cons e rest ih => rw [List.foldl_cons, ih, LawfulStableDiGraph.node_remove_edge]

theorem edge_remove_edges (es : List EdgeIndex) (g : G) (e : EdgeIndex) :
    edge (remove_edges es g) e = if e ∈ es then none else edge g e := by
  unfold remove_edges
  induction es generalizing g with
  | nil => rfl
  | cons e' rest ih =>
    rw [List.foldl_cons, ih, LawfulStableDiGraph.edge_remove_edge]
    by_cases he : e ∈ rest
    · simp only [he, if_true, List.mem_cons_of_mem]
    · by_cases heq : e = e'
      · simp only [heq, List.mem_cons_self, if_true, ite_self]
      · simp only [he, heq, if_false, List.mem_cons, or_self]

end StableDiGraph

/-! ### A graph with a log -/

/-- A graph and the indices that were given to its vertices, in order. -/
structure Logged (G : Type) where
  graph : G
  issued : List NodeIndex

namespace Logged
variable {G N E : Type} [StableDiGraph G N E]

instance stable : StableDiGraph (Logged G) N E where
  new := ⟨new, []⟩
  node_weight g := node_weight g.graph
  edge g := edge g.graph
  find_edge g := find_edge g.graph
  outgoing g := outgoing g.graph
  incoming g := incoming g.graph
  node_indices g := node_indices g.graph
  add_node n g := ((add_node n g.graph).1, ⟨(add_node n g.graph).2, g.issued ++ [(add_node n g.graph).1]⟩)
  add_edge a b w g := ((add_edge a b w g.graph).1, {g with graph := (add_edge a b w g.graph).2})
  remove_edge e g := {g with graph := remove_edge e g.graph}
  edge_weight_mut e f g := {g with graph := edge_weight_mut e f g.graph}
  edges_size := edges_size G

instance lawful [LawfulStableDiGraph G] : LawfulStableDiGraph (Logged G) where
  node_new := LawfulStableDiGraph.node_new (G := G)
  edge_new := LawfulStableDiGraph.edge_new (G := G)
  vacant_add_node n g := LawfulStableDiGraph.vacant_add_node n g.graph
  node_add_node n g := LawfulStableDiGraph.node_add_node n g.graph
  edge_add_node n g := LawfulStableDiGraph.edge_add_node n g.graph
  node_add_edge a b w g := LawfulStableDiGraph.node_add_edge a b w g.graph
  vacant_add_edge a b w g := LawfulStableDiGraph.vacant_add_edge a b w g.graph
  edge_add_edge a b w g := LawfulStableDiGraph.edge_add_edge a b w g.graph
  node_remove_edge e g := LawfulStableDiGraph.node_remove_edge e g.graph
  edge_remove_edge e g := LawfulStableDiGraph.edge_remove_edge e g.graph
  node_edge_weight_mut e f g := LawfulStableDiGraph.node_edge_weight_mut e f g.graph
  edge_edge_weight_mut e f g := LawfulStableDiGraph.edge_edge_weight_mut e f g.graph
  find_edge_some := LawfulStableDiGraph.find_edge_some (G := G)
  find_edge_none := LawfulStableDiGraph.find_edge_none (G := G)
  mem_outgoing := LawfulStableDiGraph.mem_outgoing (G := G)
  nodup_outgoing g := LawfulStableDiGraph.nodup_outgoing g.graph
  mem_incoming := LawfulStableDiGraph.mem_incoming (G := G)
  mem_node_indices := LawfulStableDiGraph.mem_node_indices (G := G)
  nodup_node_indices g := LawfulStableDiGraph.nodup_node_indices g.graph
  edges_size_lt := LawfulStableDiGraph.edges_size_lt (G := G)

end Logged

end Hopr.Graph
