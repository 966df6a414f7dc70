import Mathlib.Data.List.Range
import Mathlib.Data.List.Nodup
import Hopr.Graph.StableDiGraph

/-! A graph kept in two lists.

`ListGraph` is a lawful stable graph in which nothing is reused: a vertex or edge
is put behind the others and its index is its place there. -/
namespace Hopr.Graph

structure ListGraph (N E : Type) where
  nodes : List N
  /-- A removed edge leaves its place empty. -/
  edges : List (Option (Edge E))

namespace ListGraph
variable {N E : Type}

def edge (g : ListGraph N E) (e : EdgeIndex) : Option (Edge E) := g.edges[e.index]?.join

def edge_indices (g : ListGraph N E) : List EdgeIndex := (List.range g.edges.length).map EdgeIndex.mk

/-- The edges with a property, the newest first. -/
def edges_with (g : ListGraph N E) (p : Edge E → Bool) : List EdgeIndex :=
  (g.edge_indices.filter fun e => (g.edge e).any p).reverse

def add_node (n : N) (g : ListGraph N E) : NodeIndex × ListGraph N E :=
  (⟨g.nodes.length⟩, {g with nodes := g.nodes ++ [n]})

def add_edge (a b : NodeIndex) (w : E) (g : ListGraph N E) : EdgeIndex × ListGraph N E :=
  (⟨g.edges.length⟩, {g with edges := g.edges ++ [some (a, b, w)]})

/-- The place of an edge is written over. -/
def modify (e : EdgeIndex) (f : Option (Edge E) → Option (Edge E)) (g : ListGraph N E) : ListGraph N E :=
  {g with edges := g.edges.modify e.index f}

theorem mem_edges_with {g : ListGraph N E} {p : Edge E → Bool} {e : EdgeIndex} :
    e ∈ g.edges_with p ↔ ∃ x, g.edge e = some x ∧ p x = true := by
  unfold edges_with edge_indices
  rw [List.mem_reverse, List.mem_filter, Option.any_eq_true]
  constructor
  · intro ⟨_, x, hx, hp⟩
    exact ⟨x, hx, hp⟩
  · intro ⟨x, hx, hp⟩
    have hplace : e.index < g.edges.length := by
      by_contra hout
      rw [edge, List.getElem?_eq_none (Nat.le_of_not_lt hout)] at hx
      cases hx
    exact ⟨List.mem_map.mpr ⟨e.index, List.mem_range.mpr hplace, rfl⟩, x, hx, hp⟩

theorem nodup_indices {I : Type} {mk : Nat → I} (hmk : Function.Injective mk) (n : Nat) :
    ((List.range n).map mk).Nodup :=
  List.nodup_range.map hmk

theorem nodup_edges_with (g : ListGraph N E) (p : Edge E → Bool) : (g.edges_with p).Nodup :=
  List.nodup_reverse.mpr
    ((nodup_indices (fun _ _ h => EdgeIndex.mk.inj h) g.edges.length).filter _)

theorem edge_modify (e : EdgeIndex) (f : Option (Edge E) → Option (Edge E)) (g : ListGraph N E)
    (hf : f none = none) (e' : EdgeIndex) :
    (g.modify e f).edge e' = if e' = e then f (g.edge e') else g.edge e' := by
  unfold modify edge
  by_cases he : e' = e
  · subst he
    rw [if_pos rfl, List.getElem?_modify_eq]
    cases g.edges[e'.index]? with
    | none => exact hf.symm
    | some x => rfl
  · have hindex : e.index ≠ e'.index := by
      intro h
      exact he (congrArg EdgeIndex.mk h.symm)
    rw [if_neg he, List.getElem?_modify_ne _ _ hindex]

theorem getElem?_concat_ne {A : Type} (l : List A) (x : A) {i : Nat} (hi : i ≠ l.length) :
    (l ++ [x])[i]? = l[i]? := by
  rw [List.getElem?_append]
  split
  · rfl
  · next hout =>
    rw [List.getElem?_eq_none (Nat.le_of_not_lt hout), List.getElem?_eq_none]
    rw [List.length_singleton]
    omega

instance stable : StableDiGraph (ListGraph N E) N E where
  new := ⟨[], []⟩
  node_weight g i := g.nodes[i.index]?
  edge := edge
  find_edge g a b := (g.edges_with fun x => x.1 == a && x.2.1 == b).head?
  outgoing g a := g.edges_with fun x => x.1 == a
  incoming g b := g.edges_with fun x => x.2.1 == b
  node_indices g := (List.range g.nodes.length).map NodeIndex.mk
  add_node := add_node
  add_edge := add_edge
  remove_edge e := modify e fun _ => none
  edge_weight_mut e f := modify e fun x => x.map fun x => (x.1, x.2.1, f x.2.2)
  edges_size := 408

instance lawful : LawfulStableDiGraph (ListGraph N E) where
  node_new _ := rfl
  edge_new _ := rfl
  vacant_add_node n g := List.getElem?_eq_none (Nat.le_refl _)
  node_add_node n g i := by
    show (g.nodes ++ [n])[i.index]? = if i = ⟨g.nodes.length⟩ then some n else g.nodes[i.index]?
    split
    · next hi => rw [hi, List.getElem?_concat_length]
    · next hi => exact getElem?_concat_ne _ _ fun h => hi (congrArg NodeIndex.mk h)
  edge_add_node _ _ _ := rfl
  node_add_edge _ _ _ _ _ _ _ := rfl
  vacant_add_edge a b w g _ _ := by
    show g.edges[g.edges.length]?.join = none
    rw [List.getElem?_eq_none (Nat.le_refl _), Option.join_none]
  edge_add_edge a b w g e _ _ := by
    show (g.edges ++ [some (a, b, w)])[e.index]?.join =
      if e = ⟨g.edges.length⟩ then some (a, b, w) else g.edges[e.index]?.join
    split
    · next he => rw [he, List.getElem?_concat_length, Option.join_some]
    · next he => rw [getElem?_concat_ne _ _ fun h => he (congrArg EdgeIndex.mk h)]
  node_remove_edge _ _ _ := rfl
  edge_remove_edge e g := edge_modify e _ g rfl
  node_edge_weight_mut _ _ _ _ := rfl
  edge_edge_weight_mut e f g := edge_modify e _ g rfl
  find_edge_some {g a b e} h := by
    obtain ⟨⟨x, y, w⟩, he, hp⟩ := mem_edges_with.mp (List.mem_of_mem_head? h)
    simp only [Bool.and_eq_true, beq_iff_eq] at hp
    exact ⟨w, by rw [← hp.1, ← hp.2]; exact he⟩
  find_edge_none {g a b} h e w he := by
    have hnil := List.head?_eq_none_iff.mp h
    have hmem := mem_edges_with (p := fun x => x.1 == a && x.2.1 == b).mpr ⟨_, he, by simp⟩
    rw [hnil] at hmem
    cases hmem
  mem_outgoing {g a e} := by
    apply mem_edges_with.trans
    simp only [Prod.exists, beq_iff_eq]
    exact ⟨fun ⟨_, y, w, he, hx⟩ => ⟨y, w, hx ▸ he⟩, fun ⟨y, w, he⟩ => ⟨a, y, w, he, rfl⟩⟩
  nodup_outgoing g a := nodup_edges_with g _
  mem_incoming {g b e} := by
    apply mem_edges_with.trans
    simp only [Prod.exists, beq_iff_eq]
    exact ⟨fun ⟨x, _, w, he, hy⟩ => ⟨x, w, hy ▸ he⟩, fun ⟨x, w, he⟩ => ⟨x, b, w, he, rfl⟩⟩
  mem_node_indices {g i} := by
    show i ∈ (List.range g.nodes.length).map NodeIndex.mk ↔ ∃ n, g.nodes[i.index]? = some n
    constructor
    · intro hi
      obtain ⟨j, hj, rfl⟩ := List.mem_map.mp hi
      exact ⟨_, List.getElem?_eq_getElem (List.mem_range.mp hj)⟩
    · intro ⟨n, hn⟩
      obtain ⟨hlt, _⟩ := List.getElem?_eq_some_iff.mp hn
      exact List.mem_map.mpr ⟨i.index, List.mem_range.mpr hlt, rfl⟩
  nodup_node_indices g := nodup_indices (fun _ _ h => NodeIndex.mk.inj h) g.nodes.length
  edges_size_lt := (by decide : 408 < 2 ^ 61)

end ListGraph

end Hopr.Graph
