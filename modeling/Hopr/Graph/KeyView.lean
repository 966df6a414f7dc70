import Hopr.Graph.KeyGraph

/-! The channel graph is the graph of its keys.

`view` reads a graph of keys off the four structures. Each change of the structures
is one of the graph of keys: a vertex that is added, retired or joined, an edge that
is weighed or cut (`view_alter` for the last three). So whatever calls are made, what
is observed of the channel graph is what they make of the graph of keys
(`calls_refine`). -/
namespace Hopr.Graph
open StableDiGraph BiHashMap

section Observers
variable {G M W : Type} [StableDiGraph G OffchainPublicKey W] [BiHashMap M OffchainPublicKey NodeIndex]

def InnerGraph.edge_between (s : InnerGraph G M) (src dest : OffchainPublicKey) : Option W := do
  let src_idx ← get_by_left s.indices src
  let dest_idx ← get_by_left s.indices dest
  let edge_idx ← find_edge s.graph src_idx dest_idx
  edge_weight s.graph edge_idx

namespace ChannelGraph

def edge (g : ChannelGraph G M) (src dest : OffchainPublicKey) : Option W := g.inner.edge_between src dest

/-- `contains_edge` asks whether an edge is found. -/
def has_edge (g : ChannelGraph G M) (src dest : OffchainPublicKey) : Bool :=
  match get_by_left g.inner.indices src, get_by_left g.inner.indices dest with
  | some src_idx, some dest_idx => (find_edge g.inner.graph src_idx dest_idx).isSome
  | _, _ => false

end ChannelGraph

end Observers

namespace KeyView
open InnerGraph Graph.Representation Loopback Resolution

section View
variable {G M W : Type} [StableDiGraph G OffchainPublicKey W] [BiHashMap M OffchainPublicKey NodeIndex]

theorem mapped_of_edge_between {s : InnerGraph G M} {src dest : OffchainPublicKey} {w : W}
    (h : s.edge_between src dest = some w) : Mapped s src ∧ Mapped s dest := by
  obtain ⟨a, ha, h⟩ := Option.bind_eq_some_iff.mp h
  obtain ⟨b, hb, _⟩ := Option.bind_eq_some_iff.mp h
  exact ⟨⟨a, ha⟩, b, hb⟩

/-- The graph of the keys. -/
def view (s : InnerGraph G M) : KeyGraph W := ⟨{key | Mapped s key}, s.edge_between, mapped_of_edge_between⟩

theorem edge_of_find_none {s : InnerGraph G M} {src dest : OffchainPublicKey}
    {a b : NodeIndex}
    (ha : get_by_left s.indices src = some a) (hb : get_by_left s.indices dest = some b)
    (hfree : find_edge s.graph a b = none) : (view s).edge src dest = none := by
  show s.edge_between src dest = none
  simp only [edge_between, ha, hb, Option.bind_eq_bind, Option.bind_some, hfree, Option.bind_none]

variable [LawfulStableDiGraph G] {s : InnerGraph G M}

theorem view_edge_iff (h : Represented s) {src dest : OffchainPublicKey} {w : W} :
    (view s).edge src dest = some w ↔ ∃ e a b, get_by_left s.indices src = some a ∧
      get_by_left s.indices dest = some b ∧ StableDiGraph.edge s.graph e = some (a, b, w) := by
  constructor
  · intro hw
    obtain ⟨a, ha, hw⟩ := Option.bind_eq_some_iff.mp hw
    obtain ⟨b, hb, hw⟩ := Option.bind_eq_some_iff.mp hw
    obtain ⟨e, he, hw⟩ := Option.bind_eq_some_iff.mp hw
    obtain ⟨w', he'⟩ := LawfulStableDiGraph.find_edge_some he
    rw [edge_weight, he'] at hw
    exact ⟨e, a, b, ha, hb, he'.trans (congrArg (fun w => some (a, b, w)) (Option.some.inj hw))⟩
  · rintro ⟨e, a, b, ha, hb, he⟩
    have hfind : find_edge s.graph a b = some e := (find_edge_iff h).mpr ⟨w, he⟩
    show s.edge_between src dest = some w
    simp only [edge_between, ha, hb, Option.bind_eq_bind, Option.bind_some, hfind, edge_weight, he, Option.map_some]

theorem view_ext (h : Represented s) {k : KeyGraph W} (hnodes : ∀ key, Mapped s key ↔ key ∈ k.nodes)
    (hedge : ∀ src dest w, (∃ e a b, get_by_left s.indices src = some a ∧ get_by_left s.indices dest = some b ∧
      StableDiGraph.edge s.graph e = some (a, b, w)) ↔ k.edge src dest = some w) : view s = k := by
  refine KeyGraph.ext (k := view s) (Set.ext hnodes) ?_
  intro src dest
  apply Option.ext
  intro w
  exact (view_edge_iff h).trans (hedge src dest w)

/-- An edge that joins two keys has the weight that is observed between them. -/
theorem view_edge_of_joins (h : Represented s) {e : EdgeIndex} {hop : Hop} (hjoins : Joins s e hop) :
    (view s).edge hop.1 hop.2 = edge_weight s.graph e := by
  obtain ⟨a, b, w, ha, hb, he⟩ := hjoins
  rw [edge_weight, he]
  exact (view_edge_iff h).mpr ⟨e, a, b, ha, hb, he⟩

/-- An edge that is found joins its keys. -/
theorem joins_of_find {src dest : OffchainPublicKey} {a b : NodeIndex} {e : EdgeIndex}
    (ha : get_by_left s.indices src = some a) (hb : get_by_left s.indices dest = some b)
    (he : find_edge s.graph a b = some e) : Joins s e (src, dest) := by
  obtain ⟨w, he⟩ := LawfulStableDiGraph.find_edge_some he
  exact ⟨a, b, w, ha, hb, he⟩

theorem edge_of_find {src dest : OffchainPublicKey} {a b : NodeIndex} {e : EdgeIndex} (h : Represented s)
    (ha : get_by_left s.indices src = some a) (hb : get_by_left s.indices dest = some b)
    (he : find_edge s.graph a b = some e) : ∃ w, (view s).edge src dest = some w := by
  obtain ⟨w, he⟩ := LawfulStableDiGraph.find_edge_some he
  exact ⟨w, (view_edge_iff h).mpr ⟨e, a, b, ha, hb, he⟩⟩

end View

/-! ### Nodes -/

section Nodes
variable {G M W : Type} [StableDiGraph G OffchainPublicKey W] [BiHashMap M OffchainPublicKey NodeIndex]
  [LawfulStableDiGraph G] {s : InnerGraph G M}

theorem edge_removed_iff {key : OffchainPublicKey} {i : NodeIndex} (hi : get_by_left s.indices key = some i)
    {e : EdgeIndex} {a b : NodeIndex} {w : W} :
    StableDiGraph.edge (s.remove_node key).graph e = some (a, b, w) ↔
      StableDiGraph.edge s.graph e = some (a, b, w) ∧ a ≠ i ∧ b ≠ i := by
  constructor
  · exact edge_removed hi
  · rintro ⟨he, ha, hb⟩
    rw [remove_node_present hi, edge_remove_edges, if_neg, he]
    rw [List.mem_append, LawfulStableDiGraph.mem_outgoing, LawfulStableDiGraph.mem_incoming, he]
    rintro (⟨_, _, heq⟩ | ⟨_, _, heq⟩)
    · cases heq
      exact ha rfl
    · cases heq
      exact hb rfl

variable [LawfulBiHashMap M]

theorem view_add_node (h : Represented s) (key : OffchainPublicKey) :
    view (s.add_node key) = (view s).add_node key := by
  cases hkey : get_by_left s.indices key with
  | some i =>
    rw [add_node_present hkey]
    refine KeyGraph.ext (Set.ext fun k => ?_) fun _ _ => rfl
    show Mapped s k ↔ k = key ∨ Mapped s k
    constructor
    · exact .inr
    · rintro (rfl | hk)
      · exact ⟨i, hkey⟩
      · exact hk
  | none =>
    apply view_ext (represented_added h hkey)
    · intro k
      show (∃ i, _ = some i) ↔ k = key ∨ ∃ i, _ = some i
      simp only [left_added h hkey]
      by_cases hk : k = key
      · simp only [hk, if_true, true_or, iff_true]
        exact ⟨_, rfl⟩
      · simp only [hk, if_false, false_or]
    · intro src dest w
      rw [KeyGraph.add_node, view_edge_iff h, graph_added hkey]
      simp only [LawfulStableDiGraph.edge_add_node]
      -- No edge ends in the new vertex.
      have hold : ∀ {k i}, InUse s i →
          (get_by_left (s.add_node key).indices k = some i ↔ get_by_left s.indices k = some i) := by
        intro k i ⟨k', hk'⟩
        constructor
        · intro hk
          rw [left_added h hkey] at hk
          split at hk
          · cases hk
            exact absurd hk' (h.unused key k')
          · exact hk
        · exact left_added_old h hkey
      constructor
      · rintro ⟨e, a, b, ha, hb, he⟩
        exact ⟨e, a, b, (hold (h.ends he).1).mp ha, (hold (h.ends he).2).mp hb, he⟩
      · rintro ⟨e, a, b, ha, hb, he⟩
        exact ⟨e, a, b, (hold (h.ends he).1).mpr ha, (hold (h.ends he).2).mpr hb, he⟩

theorem view_remove_node (h : Represented s) (key : OffchainPublicKey) :
    view (s.remove_node key) = (view s).remove_node key := by
  cases hi : get_by_left s.indices key with
  | none =>
    have hkey : ¬ Mapped s key := by
      rintro ⟨i, hi'⟩
      cases hi.symm.trans hi'
    have hsame : s.remove_node key = s := by
      simp only [InnerGraph.remove_node, hi]
    rw [hsame]
    apply KeyGraph.ext
    · ext k
      show Mapped s k ↔ Mapped s k ∧ k ≠ key
      refine ⟨fun hk => ⟨hk, ?_⟩, And.left⟩
      rintro rfl
      exact hkey hk
    · intro src dest
      show _ = if src = key ∨ dest = key then none else (view s).edge src dest
      split
      · next hor =>
        cases hedge : (view s).edge src dest with
        | none => rfl
        | some w =>
          have hends := (view s).ends hedge
          rcases hor with rfl | rfl
          · exact absurd hends.1 hkey
          · exact absurd hends.2 hkey
      · rfl
  | some i =>
    apply view_ext (represented_removed h key)
    · intro k
      show (∃ j, _ = some j) ↔ (∃ j, _ = some j) ∧ k ≠ key
      simp only [left_removed hi]
      by_cases hk : k = key
      · simp [hk]
      · simp only [hk, if_false, ne_eq, not_false_eq_true, and_true]
    · intro src dest w
      simp only [left_removed hi, edge_removed_iff hi]
      show _ ↔ (if src = key ∨ dest = key then none else (view s).edge src dest) = some w
      by_cases hor : src = key ∨ dest = key
      · rw [if_pos hor]
        constructor
        · rintro ⟨e, a, b, ha, hb, _⟩
          rcases hor with rfl | rfl
          · rw [if_pos rfl] at ha
            cases ha
          · rw [if_pos rfl] at hb
            cases hb
        · intro hnone
          cases hnone
      · rw [if_neg hor, view_edge_iff h]
        rw [not_or] at hor
        simp only [hor.1, hor.2, if_false]
        constructor
        · rintro ⟨e, a, b, ha, hb, he, _⟩
          exact ⟨e, a, b, ha, hb, he⟩
        · rintro ⟨e, a, b, ha, hb, he⟩
          refine ⟨e, a, b, ha, hb, he, ?_, ?_⟩
          · rintro rfl
            exact hor.1 (left_injective ha hi)
          · rintro rfl
            exact hor.2 (left_injective hb hi)

end Nodes

/-! ### Edges -/

section Edges
variable {G M W : Type} [StableDiGraph G OffchainPublicKey W] [BiHashMap M OffchainPublicKey NodeIndex]
  [LawfulStableDiGraph G] [LawfulBiHashMap M] {s s' : InnerGraph G M}

/-- Nothing changes but what there is between two nodes. -/
theorem view_alter (h : Represented s) (h' : Represented s') {src dest : OffchainPublicKey} {a b : NodeIndex}
    (ha : get_by_left s.indices src = some a) (hb : get_by_left s.indices dest = some b)
    (hindices : s'.indices = s.indices) {f : Option W → Option W}
    (hother : ∀ {x y w}, (x, y) ≠ (a, b) → ((∃ e, StableDiGraph.edge s'.graph e = some (x, y, w)) ↔
      ∃ e, StableDiGraph.edge s.graph e = some (x, y, w)))
    (hsame : ∀ w, (∃ e, StableDiGraph.edge s'.graph e = some (a, b, w)) ↔ f ((view s).edge src dest) = some w) :
    view s' = (view s).alter src dest f := by
  apply view_ext h'
  · intro key
    show (∃ i, get_by_left s'.indices key = some i) ↔ Mapped s key
    rw [hindices]
    exact Iff.rfl
  · intro src' dest' w
    have hends : src ∈ (view s).nodes ∧ dest ∈ (view s).nodes := ⟨⟨a, ha⟩, b, hb⟩
    simp only [KeyGraph.alter, hends, and_self, and_true, hindices]
    split
    · next heq =>
      rw [heq.1, heq.2, ← hsame]
      constructor
      · rintro ⟨e, x, y, hx, hy, he⟩
        cases hx.symm.trans ha
        cases hy.symm.trans hb
        exact ⟨e, he⟩
      · rintro ⟨e, he⟩
        exact ⟨e, a, b, ha, hb, he⟩
    · next hne =>
      rw [view_edge_iff h]
      have hapart : ∀ {x y}, get_by_left s.indices src' = some x → get_by_left s.indices dest' = some y →
          (x, y) ≠ (a, b) := by
        intro x y hx hy heq
        cases heq
        exact hne ⟨left_injective hx ha, left_injective hy hb⟩
      constructor
      · rintro ⟨e, x, y, hx, hy, he⟩
        obtain ⟨e', he'⟩ := (hother (hapart hx hy)).mp ⟨e, he⟩
        exact ⟨e', x, y, hx, hy, he'⟩
      · rintro ⟨e, x, y, hx, hy, he⟩
        obtain ⟨e', he'⟩ := (hother (hapart hx hy)).mpr ⟨e, he⟩
        exact ⟨e', x, y, hx, hy, he'⟩

theorem view_joined (h : Represented s) {src dest : OffchainPublicKey} {a b : NodeIndex} (w : W)
    (ha : get_by_left s.indices src = some a) (hb : get_by_left s.indices dest = some b)
    (hfree : find_edge s.graph a b = none) {f : Option W → Option W} (hf : f none = some w) :
    view {s with graph := (StableDiGraph.add_edge a b w s.graph).2} = (view s).alter src dest f := by
  have hnone := LawfulStableDiGraph.find_edge_none hfree
  have hvacant := LawfulStableDiGraph.vacant_add_edge a b w s.graph (h.occupied ha) (h.occupied hb)
  have hedge := fun e => LawfulStableDiGraph.edge_add_edge a b w s.graph e (h.occupied ha) (h.occupied hb)
  apply view_alter h (represented_joined h w ha hb hfree) ha hb rfl
  · intro x y v hne
    simp only [hedge]
    constructor
    · rintro ⟨e, he⟩
      split at he
      · cases he
        exact absurd rfl hne
      · exact ⟨e, he⟩
    · rintro ⟨e, he⟩
      refine ⟨e, ?_⟩
      rw [if_neg, he]
      rintro rfl
      cases hvacant.symm.trans he
  · intro v
    have hbefore : (view s).edge src dest = none := by
      rw [Option.eq_none_iff_forall_ne_some]
      intro u hu
      obtain ⟨e, x, y, hx, hy, he⟩ := (view_edge_iff h).mp hu
      cases hx.symm.trans ha
      cases hy.symm.trans hb
      exact hnone e u he
    simp only [hedge, hbefore, hf]
    constructor
    · rintro ⟨e, he⟩
      split at he
      · cases he
        rfl
      · exact absurd he (hnone e v)
    · intro hv
      cases hv
      exact ⟨_, if_pos rfl⟩

theorem view_cut (h : Represented s) {e : EdgeIndex} {hop : Hop} (hjoins : Joins s e hop) :
    view {s with graph := StableDiGraph.remove_edge e s.graph} = (view s).alter hop.1 hop.2 fun _ => none := by
  obtain ⟨a, b, v, ha, hb, he⟩ := hjoins
  apply view_alter h (represented_cut h e) ha hb rfl
  · intro x y w hne
    simp only [LawfulStableDiGraph.edge_remove_edge]
    constructor
    · rintro ⟨e', he'⟩
      split at he'
      · cases he'
      · exact ⟨e', he'⟩
    · rintro ⟨e', he'⟩
      refine ⟨e', ?_⟩
      rw [if_neg, he']
      rintro rfl
      cases he.symm.trans he'
      exact hne rfl
  · intro w
    simp only [LawfulStableDiGraph.edge_remove_edge, reduceCtorEq, iff_false]
    rintro ⟨e', he'⟩
    split at he'
    · cases he'
    · next hother => exact hother (h.apart he' he)

theorem view_weighed (h : Represented s) {e : EdgeIndex} {hop : Hop} (hjoins : Joins s e hop) (f : W → W) :
    view {s with graph := edge_weight_mut e f s.graph} = (view s).alter hop.1 hop.2 (Option.map f) := by
  have hweight := view_edge_of_joins h hjoins
  obtain ⟨a, b, v, ha, hb, he⟩ := hjoins
  rw [edge_weight, he, Option.map_some] at hweight
  apply view_alter h (represented_weighed h e f) ha hb rfl
  · intro x y w hne
    have hother : ∀ {e' u}, StableDiGraph.edge s.graph e' = some (x, y, u) → e' ≠ e := by
      rintro e' u he' rfl
      cases he.symm.trans he'
      exact hne rfl
    simp only [LawfulStableDiGraph.edge_edge_weight_mut]
    constructor
    · rintro ⟨e', he'⟩
      refine ⟨e', ?_⟩
      split at he'
      · next heq =>
        rw [heq, he] at he'
        cases he'
        exact absurd rfl hne
      · exact he'
    · rintro ⟨e', he'⟩
      exact ⟨e', by rw [if_neg (hother he'), he']⟩
  · intro w
    simp only [LawfulStableDiGraph.edge_edge_weight_mut, hweight, Option.map_some]
    constructor
    · rintro ⟨e', he'⟩
      split at he'
      · next heq =>
        rw [heq, he] at he'
        cases he'
        rfl
      · next hother => exact absurd (h.apart he' he) hother
    · intro hw
      refine ⟨e, ?_⟩
      rw [if_pos rfl, he, Option.map_some, Option.some.inj hw]

theorem view_remove_edge (h : Represented s) (src dest : OffchainPublicKey) :
    view (s.remove_edge src dest) = (view s).remove_edge src dest := by
  unfold InnerGraph.remove_edge KeyGraph.remove_edge
  split
  · next a b ha hb =>
    split
    · next e he => exact view_cut h (joins_of_find ha hb he)
    · next hfree => exact (KeyGraph.alter_same (edge_of_find_none ha hb hfree).symm).symm
  · next hnone =>
    refine (KeyGraph.alter_absent ?_ _).symm
    rintro ⟨⟨a, ha⟩, b, hb⟩
    exact hnone a b ha hb

end Edges

section Calls
variable {G M W : Type} [StableDiGraph G OffchainPublicKey W] [BiHashMap M OffchainPublicKey NodeIndex]
  {s : InnerGraph G M}

theorem add_edge_result [Observations W] (s : InnerGraph G M) (src dest : OffchainPublicKey) :
    (s.add_edge src dest).map (fun _ => ()) = (view s).added_edge src dest := by
  unfold InnerGraph.add_edge KeyGraph.added_edge
  split
  · next ha =>
    rw [if_pos]
    · rfl
    · rintro ⟨a, ha'⟩
      cases ha.symm.trans ha'
  · next a ha =>
    rw [if_neg (not_not.mpr ⟨a, ha⟩)]
    split
    · next hb =>
      rw [if_pos]
      · rfl
      · rintro ⟨b, hb'⟩
        cases hb.symm.trans hb'
    · next b hb =>
      rw [if_neg (not_not.mpr ⟨b, hb⟩)]
      split
      · rfl
      · rfl

variable [LawfulStableDiGraph G]

/-- Edges keep their ends when one is weighed. -/
theorem joins_weighed {e e' : EdgeIndex} {hop : Hop} (h : Joins s e' hop) (f : W → W) :
    Joins {s with graph := edge_weight_mut e f s.graph} e' hop := by
  obtain ⟨a, b, w, ha, hb, he⟩ := h
  have hedge := LawfulStableDiGraph.edge_edge_weight_mut e f s.graph e'
  rw [he] at hedge
  split at hedge
  · exact ⟨a, b, f w, ha, hb, hedge⟩
  · exact ⟨a, b, w, ha, hb, hedge⟩

variable [Observations W] [LawfulBiHashMap M]

theorem view_add_edge (h : Represented s) (src dest : OffchainPublicKey) :
    view ((s.add_edge src dest).toOption.getD s) = (view s).add_edge src dest := by
  unfold InnerGraph.add_edge KeyGraph.add_edge
  split
  · next ha =>
    refine (KeyGraph.alter_absent ?_ _).symm
    rintro ⟨⟨a, ha'⟩, _⟩
    cases ha.symm.trans ha'
  · next a ha =>
    split
    · next hb =>
      refine (KeyGraph.alter_absent ?_ _).symm
      rintro ⟨_, b, hb'⟩
      cases hb.symm.trans hb'
    · next b hb =>
      split
      · next e he =>
        obtain ⟨w, hw⟩ := edge_of_find h ha hb he
        exact (KeyGraph.alter_same (k := view s) (by rw [hw, Option.getD_some])).symm
      · next hfree => exact view_joined h _ ha hb hfree rfl

theorem view_upsert_edge (h : Represented s) (src dest : OffchainPublicKey) (f : W → W) :
    view (s.upsert_edge src dest f) = (view s).upsert_edge src dest f := by
  have hdest := upsert_node_mapped (s.upsert_node src).2 dest
  have h1 := represented_upsert_node h src
  have h2 := represented_upsert_node h1 dest
  have hkept := upsert_node_kept h src dest
  have hnodes : view ((s.upsert_node src).2.upsert_node dest).2 = ((view s).add_node src).add_node dest := by
    rw [upsert_node_eq, view_add_node h1, upsert_node_eq, view_add_node h]
  unfold InnerGraph.upsert_edge KeyGraph.upsert_edge
  dsimp only
  rw [← hnodes]
  split
  · next e he =>
    obtain ⟨w, hw⟩ := edge_of_find h2 hkept hdest he
    rw [view_weighed h2 (joins_of_find hkept hdest he) f]
    exact KeyGraph.alter_congr (by rw [hw]; rfl)
  · next hfree =>
    -- The edge is added with no observations, and then weighed.
    have hjoins : Joins {((s.upsert_node src).2.upsert_node dest).2 with
        graph := (StableDiGraph.add_edge (s.upsert_node src).1 ((s.upsert_node src).2.upsert_node dest).1
          Observations.default ((s.upsert_node src).2.upsert_node dest).2.graph).2}
        (StableDiGraph.add_edge (s.upsert_node src).1 ((s.upsert_node src).2.upsert_node dest).1
          Observations.default ((s.upsert_node src).2.upsert_node dest).2.graph).1 (src, dest) := by
      refine ⟨_, _, Observations.default, hkept, hdest, ?_⟩
      rw [LawfulStableDiGraph.edge_add_edge _ _ _ _ _ (h2.occupied hkept) (h2.occupied hdest), if_pos rfl]
    have hedge := edge_of_find_none hkept hdest hfree
    refine (view_weighed (represented_joined h2 _ hkept hdest hfree) hjoins f).trans ?_
    rw [view_joined h2 Observations.default hkept hdest hfree
      (f := fun w => some (w.getD Observations.default)) rfl, KeyGraph.alter_alter]
    exact KeyGraph.alter_congr rfl

/-- Both directions. -/
theorem view_upsert_both {g : ChannelGraph G M} (h : Represented g.inner) (peer : OffchainPublicKey) (f : W → W) :
    view (g.upsert_both peer f).inner = (view g.inner).upsert_both g.me peer f := by
  have hto := view_upsert_edge h g.me peer f
  have hrepresented := represented_changes h (changes_upsert_edge h g.me peer f)
  exact (view_upsert_edge hrepresented peer g.me f).trans (congrArg (KeyGraph.upsert_edge peer g.me f) hto)

theorem view_record_at (h : Represented s) (now_ms : Nat) (measurement : EdgeWeightType) {edges : List EdgeIndex}
    {hops : List Hop} (hjoins : List.Forall₂ (Joins s) edges hops) :
    view (s.record_at now_ms measurement edges) = (view s).record_at now_ms measurement hops := by
  induction edges generalizing s hops with
  | nil =>
    cases hjoins
    rfl
  | cons e edges ih =>
    cases hjoins with
    | @cons _ hop _ hops hfirst hrest =>
      have hweighed := view_weighed h hfirst (Observations.record now_ms measurement)
      have hkept := hrest.imp fun _ _ hjoins => joins_weighed (e := e) hjoins (Observations.record now_ms measurement)
      have hlater := ih (represented_weighed h e _) hkept
      exact hlater.trans (congrArg (KeyGraph.record_at now_ms measurement hops) hweighed)

end Calls

/-! ### Judgements -/

section Judgements
variable {G M W F : Type} [StableDiGraph G OffchainPublicKey W] [LawfulStableDiGraph G] [Observations W]
  [NodeHealth W F] [LawfulNodeHealth W] {s : InnerGraph G M}

/-- To judge an edge twice is to judge it once. -/
theorem edge_judged (health : Option F) (edges : List EdgeIndex) (g : G) (e : EdgeIndex) :
    StableDiGraph.edge (edges.foldl (fun g e => edge_weight_mut e (NodeHealth.set_health health) g) g) e =
      if e ∈ edges then (StableDiGraph.edge g e).map fun x => (x.1, x.2.1, NodeHealth.set_health health x.2.2)
      else StableDiGraph.edge g e := by
  induction edges generalizing g with
  | nil => rfl
  | cons e' rest ih =>
    rw [List.foldl_cons, ih, LawfulStableDiGraph.edge_edge_weight_mut]
    by_cases he : e = e'
    · subst he
      simp only [if_true, Option.map_map, Function.comp_def, LawfulNodeHealth.set_health_again, ite_self,
        List.mem_cons_self]
    · simp only [he, if_false, List.mem_cons, false_or]

variable [LinearOrder F] [Zero F] [One F]

/-- The edges into the vertex are judged, and no others. -/
theorem edge_set_node_health (s : InnerGraph G M) (idx : NodeIndex) (health : F) {e : EdgeIndex} {a b : NodeIndex}
    {w : W} : StableDiGraph.edge (s.set_node_health idx health).graph e = some (a, b, w) ↔
      ∃ v, StableDiGraph.edge s.graph e = some (a, b, v) ∧
        w = if b = idx then NodeHealth.set_health (kept_health health) v else v := by
  simp only [set_node_health, edge_judged]
  cases he : StableDiGraph.edge s.graph e with
  | none => simp
  | some x =>
    obtain ⟨a', b', v⟩ := x
    simp only [Option.some.injEq, Prod.mk.injEq, Option.map_some]
    by_cases hb : b' = idx
    · rw [if_pos (LawfulStableDiGraph.mem_incoming.mpr ⟨a', v, hb ▸ he⟩)]
      grind
    · rw [if_neg]
      · grind
      · intro hmem
        obtain ⟨_, _, he'⟩ := LawfulStableDiGraph.mem_incoming.mp hmem
        cases he.symm.trans he'
        exact hb rfl

variable [BiHashMap M OffchainPublicKey NodeIndex] [LawfulBiHashMap M]

theorem view_judge (h : Represented s) (node : OffchainPublicKey) (health : F) :
    view (s.judge node health) = (view s).judge node health := by
  have hrepresented := represented_changes h (changes_judge node health s)
  cases hi : get_by_left s.indices node with
  | none =>
    have hsame : s.judge node health = s := by
      simp only [InnerGraph.judge, hi]
    rw [hsame]
    refine KeyGraph.ext (by rfl) fun src dest => ?_
    show _ = if dest = node then _ else _
    split
    · next hdest =>
      cases hedge : (view s).edge src dest with
      | none => rfl
      | some w =>
        obtain ⟨_, j, hj⟩ := (view s).ends hedge
        rw [hdest, hi] at hj
        cases hj
    · rfl
  | some i =>
    have hjudged : s.judge node health = s.set_node_health i health := by
      simp only [InnerGraph.judge, hi]
    rw [hjudged] at hrepresented ⊢
    refine view_ext hrepresented (fun key => Iff.rfl) ?_
    intro src dest w
    have hvalue : ((view s).judge node health).edge src dest = some w ↔ ∃ v, (view s).edge src dest = some v ∧
        w = if dest = node then NodeHealth.set_health (kept_health health) v else v := by
      show (if dest = node then _ else _) = _ ↔ _
      split
      · rw [Option.map_eq_some_iff]
        exact exists_congr fun v => and_congr_right fun _ => eq_comm
      · refine ⟨fun hw => ⟨w, hw, rfl⟩, ?_⟩
        rintro ⟨v, hv, rfl⟩
        exact hv
    rw [hvalue]
    simp only [edge_set_node_health, view_edge_iff h]
    have hdest : ∀ {b}, get_by_left s.indices dest = some b → (b = i ↔ dest = node) := by
      intro b hb
      constructor
      · rintro rfl
        exact left_injective hb hi
      · rintro rfl
        exact Option.some.inj (hb.symm.trans hi)
    constructor
    · rintro ⟨e, a, b, ha, hb, v, he, hw⟩
      exact ⟨v, ⟨e, a, b, ha, hb, he⟩, by simpa only [hdest hb] using hw⟩
    · rintro ⟨v, ⟨e, a, b, ha, hb, he⟩, hw⟩
      exact ⟨e, a, b, ha, hb, v, he, by simpa only [hdest hb] using hw⟩

end Judgements

/-! ### Reports -/

section Reports
variable {G M W : Type} [StableDiGraph G OffchainPublicKey W] [BiHashMap M OffchainPublicKey NodeIndex]
  {s : InnerGraph G M}

/-- The edges that a report is resolved to, if the local node is there. -/
def resolved_edges (g : ChannelGraph G M) (update : MeasurableEdge) : List EdgeIndex :=
  if g.inner.contains_node g.me then (g.resolved update).getD [] else []

theorem resolved_edges_cases (g : ChannelGraph G M) (update : MeasurableEdge) :
    (g.inner.contains_node g.me = false ∨ g.resolved update = none) ∧ resolved_edges g update = [] ∨
      g.inner.contains_node g.me = true ∧ g.resolved update = some (resolved_edges g update) := by
  unfold resolved_edges
  cases g.inner.contains_node g.me with
  | false => exact .inl ⟨.inl rfl, rfl⟩
  | true =>
    cases g.resolved update with
    | none => exact .inl ⟨.inr rfl, rfl⟩
    | some edges => exact .inr ⟨rfl, rfl⟩

theorem joins_at {edges : List EdgeIndex} {hops : List Hop} (h : List.Forall₂ (Joins s) edges hops) (i : Nat) :
    List.Forall₂ (Joins s) edges[i]?.toList hops[i]?.toList := by
  induction h generalizing i with
  | nil => exact .nil
  | cons hjoins _ ih =>
    cases i with
    | zero => exact .cons hjoins .nil
    | succ i => exact ih i

theorem joins_eraseIdx {edges : List EdgeIndex} {hops : List Hop} (h : List.Forall₂ (Joins s) edges hops) (i : Nat) :
    List.Forall₂ (Joins s) (edges.eraseIdx i) (hops.eraseIdx i) := by
  induction h generalizing i with
  | nil => exact .nil
  | cons hjoins hrest ih =>
    cases i with
    | zero => exact hrest
    | succ i => exact .cons hjoins (ih i)

variable [LawfulStableDiGraph G]

theorem walks_iff {slots : List UInt64} {hops : List Hop} (h : Represented s) :
    (view s).Walks slots hops ↔ ∃ keys edges, Leg s slots keys edges ∧ hops = keys.zip keys.tail := by
  constructor
  · rintro ⟨keys, howned, rfl, hedges⟩
    have hchain : ∃ edges, List.Forall₂ (Joins s) edges (keys.zip keys.tail) := by
      generalize keys.zip keys.tail = hops at hedges
      induction hops with
      | nil => exact ⟨[], .nil⟩
      | cons hop rest ih =>
        obtain ⟨edges, hrest⟩ := ih fun hop hmem => hedges hop (List.mem_cons_of_mem _ hmem)
        obtain ⟨w, hw⟩ := Option.isSome_iff_exists.mp (hedges hop List.mem_cons_self)
        obtain ⟨e, a, b, ha, hb, he⟩ := (view_edge_iff h).mp hw
        exact ⟨e :: edges, .cons ⟨a, b, w, ha, hb, he⟩ hrest⟩
    obtain ⟨edges, hedges⟩ := hchain
    exact ⟨keys, edges, ⟨howned, hedges⟩, rfl⟩
  · rintro ⟨keys, edges, hleg, rfl⟩
    refine ⟨keys, hleg.claimed, rfl, ?_⟩
    intro hop hmem
    obtain ⟨e, a, b, w, ha, hb, he⟩ := (Attribution.joins_mem hleg.joined).2 hop hmem
    exact Option.isSome_iff_exists.mpr ⟨w, (view_edge_iff h).mpr ⟨e, a, b, ha, hb, he⟩⟩

theorem known_latency_eq [Observations W] (h : Represented s) {edges : List EdgeIndex} {hops : List Hop}
    (hjoins : List.Forall₂ (Joins s) edges hops) (target : Nat) :
    s.known_latency edges target = ((hops.eraseIdx target).filterMap (view s).latency).sum := by
  obtain ⟨add, hfold, hadd⟩ : ∃ add : Nat → EdgeIndex → Nat,
      s.known_latency edges target = (edges.eraseIdx target).foldl add 0 ∧
        ∀ known e, add known e = known + ((edge_weight s.graph e).bind fun weight =>
          (Observations.intermediate_latency weight).or (Observations.immediate_latency weight)).getD 0 := by
    refine ⟨_, rfl, fun known e => ?_⟩
    cases edge_weight s.graph e <;> rfl
  have hsum : ∀ (start : Nat) (edges : List EdgeIndex) (hops : List Hop), List.Forall₂ (Joins s) edges hops →
      edges.foldl add start = start + (hops.filterMap (view s).latency).sum := by
    intro start edges hops hjoins
    induction hjoins generalizing start with
    | nil => rfl
    | @cons e hop edges hops hfirst _ ih =>
      rw [List.foldl_cons, ih, List.filterMap_cons, KeyGraph.latency, view_edge_of_joins h hfirst, hadd]
      cases (edge_weight s.graph e).bind fun weight =>
          (Observations.intermediate_latency weight).or (Observations.immediate_latency weight) with
      | none => rfl
      | some known => rw [Option.getD_some, List.sum_cons, Nat.add_assoc]
  rw [hfold]
  exact (hsum 0 _ _ (joins_eraseIdx hjoins target)).trans (Nat.zero_add _)

/-- What is attributed to an edge depends on the keys alone. -/
theorem attributed_eq [Observations W] (h : Represented s) {edges : List EdgeIndex} {hops : List Hop}
    (hjoins : List.Forall₂ (Joins s) edges hops) (target rtt : Nat) :
    s.attributed_duration edges target rtt = (view s).attributed hops target rtt := by
  have hcarried : (do
      let edge ← edges[target]?
      let weight ← edge_weight s.graph edge
      Observations.intermediate_latency weight) = hops[target]?.bind fun hop =>
        ((view s).edge hop.1 hop.2).bind Observations.intermediate_latency := by
    have htarget := joins_at hjoins target
    cases he : edges[target]? with
    | none =>
      rw [he] at htarget
      cases hh : hops[target]? with
      | none => rfl
      | some hop =>
        rw [hh] at htarget
        cases htarget
    | some e =>
      rw [he] at htarget
      cases hh : hops[target]? with
      | none =>
        rw [hh] at htarget
        cases htarget
      | some hop =>
        rw [hh] at htarget
        cases htarget with
        | cons hfirst _ =>
          rw [Option.bind_some, view_edge_of_joins h hfirst]
          rfl
  unfold attributed_duration KeyGraph.attributed
  dsimp only
  rw [known_latency_eq h hjoins, hcarried]

variable [LawfulBiHashMap M]

/-- A leg is walked. -/
theorem walk_edges_of_leg (h : Represented s) {slots : List UInt64} {keys : List OffchainPublicKey}
    {edges : List EdgeIndex} (hleg : Leg s slots keys edges) : s.walk_edges slots = some edges := by
  cases slots with
  | nil =>
    obtain ⟨hclaimed, hjoined⟩ := hleg
    cases hclaimed
    cases hjoined
    rfl
  | cons slot rest => exact ((leg_iff h).mp ⟨keys, hleg⟩).2

/-- What a report names is resolved. -/
theorem resolved_of_names {g : ChannelGraph G M} (h : Represented g.inner) {update : MeasurableEdge}
    {hops : List Hop} (hnames : (view g.inner).Names g.me update hops) :
    ∃ edges, g.resolved update = some edges ∧ List.Forall₂ (Joins g.inner) edges hops := by
  have hloop : ∀ path, (∃ between, LoopBytes g.me path between ∧
      (view g.inner).Walks (path_id.encode g.me :: between ++ [path_id.encode g.me]) hops) →
        ∃ edges, g.inner.resolve_loopback_edges g.me path = some edges ∧ List.Forall₂ (Joins g.inner) edges hops := by
    rintro path ⟨between, hbytes, hwalks⟩
    obtain ⟨keys, edges, hleg, rfl⟩ := (walks_iff h).mp hwalks
    exact ⟨edges, (resolve_loopback_edges_iff h).mpr ⟨between, keys, hbytes, hleg⟩, hleg.joined⟩
  cases update with
  | Surb paths =>
    obtain ⟨replier, before, between, forth, back, hmeets, hforth, hback, rfl⟩ := hnames
    obtain ⟨keys, edges, hleg, rfl⟩ := (walks_iff h).mp hforth
    obtain ⟨keys', edges', hleg', rfl⟩ := (walks_iff h).mp hback
    refine ⟨edges ++ edges', resolve_round_trip_edges_iff.mpr ?_, List.rel_append hleg.joined hleg'.joined⟩
    exact ⟨replier, before, between, edges, edges', hmeets, walk_edges_of_leg h hleg, walk_edges_of_leg h hleg', rfl⟩
  | Loopback path => exact hloop path hnames
  | ProbeLoopbackTimeout path => exact hloop path hnames
  | Neighbor | ProbeNeighborTimeout | Balance | ConnectionStatus => cases hnames

/-- What is resolved was named. -/
theorem names_of_resolved {g : ChannelGraph G M} (h : Represented g.inner) (hme : Mapped g.inner g.me)
    {update : MeasurableEdge} {edges : List EdgeIndex} (hedges : g.resolved update = some edges) :
    ∃ hops, (view g.inner).Names g.me update hops ∧ List.Forall₂ (Joins g.inner) edges hops := by
  have hloop : ∀ path, g.inner.resolve_loopback_edges g.me path = some edges → ∃ hops,
      (∃ between, LoopBytes g.me path between ∧
        (view g.inner).Walks (path_id.encode g.me :: between ++ [path_id.encode g.me]) hops) ∧
          List.Forall₂ (Joins g.inner) edges hops := by
    intro path hedges
    obtain ⟨between, keys, hbytes, hleg⟩ := (resolve_loopback_edges_iff h).mp hedges
    exact ⟨_, ⟨between, hbytes, (walks_iff h).mpr ⟨keys, edges, hleg, rfl⟩⟩, hleg.joined⟩
  cases update with
  | Surb paths =>
    obtain ⟨replier, before, between, keys, key, keys', edges, edges', hmeets, _, hleg, hleg', _, rfl⟩ :=
      legs_of_round_trip h hme hedges
    exact ⟨_, ⟨replier, before, between, _, _, hmeets, (walks_iff h).mpr ⟨_, edges, hleg, rfl⟩,
      (walks_iff h).mpr ⟨_, edges', hleg', rfl⟩, rfl⟩, List.rel_append hleg.joined hleg'.joined⟩
  | Loopback path => exact hloop path hedges
  | ProbeLoopbackTimeout path => exact hloop path hedges
  | Neighbor | ProbeNeighborTimeout | Balance | ConnectionStatus => cases hedges

/-- They join what the report names, in order. -/
theorem named_joins {g : ChannelGraph G M} (h : Represented g.inner) (update : MeasurableEdge) :
    List.Forall₂ (Joins g.inner) (resolved_edges g update) ((view g.inner).named g.me update) := by
  have hme : g.inner.contains_node g.me = true ↔ Mapped g.inner g.me := Option.isSome_iff_exists
  unfold resolved_edges
  by_cases hnamed : g.me ∈ (view g.inner).nodes ∧ ∃ hops, (view g.inner).Names g.me update hops
  · obtain ⟨edges, hedges, hjoins⟩ := resolved_of_names h hnamed.2.choose_spec
    rw [KeyGraph.named, dif_pos hnamed, if_pos (hme.mpr hnamed.1), hedges]
    exact hjoins
  · rw [KeyGraph.named, dif_neg hnamed]
    split
    · next hhere =>
      cases hedges : g.resolved update with
      | none => exact .nil
      | some edges =>
        obtain ⟨hops, hnames, _⟩ := names_of_resolved h (hme.mp hhere) hedges
        exact absurd ⟨hme.mp hhere, hops, hnames⟩ hnamed
    · exact .nil

variable [Observations W]

theorem view_record_edge {g : ChannelGraph G M} (h : Represented g.inner) (now_ms : Nat) (update : MeasurableEdge) :
    view (g.record_edge now_ms update).inner =
      (view g.inner).record_edge g.me g.max_plausible_loopback_rtt now_ms update := by
  have hjoins := named_joins h update
  have hlength := hjoins.length_eq
  have hcases := resolved_edges_cases g update
  generalize resolved_edges g update = edges at hjoins hlength hcases
  cases update with
  | Surb paths timestamp expected observed =>
    have hrecorded := view_record_at h now_ms (.SurbRoundTrips expected observed) hjoins
    simp only [ChannelGraph.record_edge, KeyGraph.record_edge, ← hrecorded]
    by_cases hfuture : now_ms < timestamp
    · rw [if_pos hfuture, if_neg fun hin => absurd hin.1 (Nat.not_le_of_lt hfuture)]
    · by_cases hold : surb_window < now_ms - timestamp
      · rw [if_neg hfuture, if_pos hold, if_neg fun hin => absurd hin.2 (Nat.not_le_of_lt hold)]
      · have hin : timestamp ≤ now_ms ∧ now_ms - timestamp ≤ surb_window :=
          ⟨Nat.le_of_not_lt hfuture, Nat.le_of_not_lt hold⟩
        rw [if_neg hfuture, if_neg hold, if_pos hin]
        simp only [ChannelGraph.resolved] at hcases
        rcases hcases with ⟨hmissing | hnone, rfl⟩ | ⟨hhere, hsome⟩
        · simp only [hmissing, Bool.not_false, if_true]
          rfl
        · simp only [hnone, ite_self]
          rfl
        · simp only [hhere, hsome, Bool.not_true, Bool.false_eq_true, if_false]
  | Loopback path timestamp =>
    have hrecorded := fun latency => view_record_at h now_ms (.Intermediate (some latency))
      (joins_at hjoins (edges.length - 2))
    have hattributed := attributed_eq h hjoins (edges.length - 2)
    have hrtt : (now_ms - timestamp) % 2 ^ 64 * 1_000_000 = Tomography.round_trip now_ms timestamp := rfl
    simp only [ChannelGraph.record_edge, KeyGraph.record_edge, ← hlength, ← hrecorded, ← hattributed, hrtt]
    simp only [ChannelGraph.resolved] at hcases
    rcases hcases with ⟨hor, rfl⟩ | ⟨hhere, hsome⟩
    · -- There is no edge to attribute anything to.
      trans view g.inner
      · rcases hor with hmissing | hnone
        · simp only [hmissing, Bool.not_false, if_true]
        · simp only [hnone, ite_self]
      · symm
        split
        · split <;> rfl
        · rfl
    · simp only [hhere, hsome, Bool.not_true, Bool.false_eq_true, if_false]
      by_cases hfuture : now_ms < timestamp
      · rw [if_pos hfuture, if_neg fun hin => absurd hin.1 (Nat.not_le_of_lt hfuture)]
      · by_cases hlong : g.max_plausible_loopback_rtt < Tomography.round_trip now_ms timestamp
        · rw [if_neg hfuture, if_pos hlong, if_neg fun hin => absurd hin.2 (Nat.not_le_of_lt hlong)]
        · rw [if_neg hfuture, if_neg hlong, if_pos (And.intro (Nat.le_of_not_lt hfuture) (Nat.le_of_not_lt hlong))]
          split
          · next hnone => rw [hnone]
          · next latency hlatency => rw [hlatency]
  | ProbeLoopbackTimeout path =>
    have hrecorded := view_record_at h now_ms (.Intermediate none) (joins_at hjoins (edges.length - 2))
    simp only [ChannelGraph.record_edge, KeyGraph.record_edge, ← hlength, ← hrecorded]
    simp only [ChannelGraph.resolved] at hcases
    rcases hcases with ⟨hmissing | hnone, rfl⟩ | ⟨hhere, hsome⟩
    · simp only [hmissing, Bool.not_false, if_true]
      rfl
    · simp only [hnone, ite_self]
      rfl
    · simp only [hhere, hsome, Bool.not_true, Bool.false_eq_true, if_false]
  | Neighbor peer rtt => exact view_upsert_both h peer _
  | ProbeNeighborTimeout peer => exact view_upsert_both h peer _
  | Balance src dest balance => exact view_upsert_edge h src dest _
  | ConnectionStatus peer connected => exact view_upsert_both h peer _

end Reports

/-! ### Calls -/

section Calls
variable {G M W F : Type} [StableDiGraph G OffchainPublicKey W] [BiHashMap M OffchainPublicKey NodeIndex]
  {s : InnerGraph G M}

/-- No call changes what the graph was made with. -/
theorem config_take [Observations W] [NodeHealth W F] [LinearOrder F] [Zero F] [One F] (g : ChannelGraph G M)
    (call : Call W F) :
    (g.take call).me = g.me ∧ (g.take call).max_plausible_loopback_rtt = g.max_plausible_loopback_rtt := by
  cases call with
  | record_nodes_health healths => exact ⟨rfl, rfl⟩
  | write op =>
    cases op with
    | add_edge src dest =>
      simp only [ChannelGraph.take, ChannelGraph.call]
      split <;> exact ⟨rfl, rfl⟩
    | record_edge now_ms update =>
      have hpath : update.NamesPath → (g.record_edge now_ms update).me = g.me ∧
          (g.record_edge now_ms update).max_plausible_loopback_rtt = g.max_plausible_loopback_rtt := by
        intro hnames
        cases ChannelGraph.record_edge_cases now_ms g hnames with
        | inl hsame => simp only [hsame, and_self]
        | inr hrecorded =>
          obtain ⟨edges, credited, measurement, _, _, heq⟩ := hrecorded
          simp only [heq, and_self]
      cases update with
      | Surb | Loopback | ProbeLoopbackTimeout => exact hpath trivial
      | Neighbor | ProbeNeighborTimeout | Balance | ConnectionStatus => exact ⟨rfl, rfl⟩
    | add_node | remove_node | remove_edge | upsert_edge => exact ⟨rfl, rfl⟩

theorem config_takes [Observations W] [NodeHealth W F] [LinearOrder F] [Zero F] [One F] (g : ChannelGraph G M)
    (calls : List (Call W F)) :
    (g.takes calls).me = g.me ∧ (g.takes calls).max_plausible_loopback_rtt = g.max_plausible_loopback_rtt := by
  induction calls generalizing g with
  | nil => exact ⟨rfl, rfl⟩
  | cons call rest ih => exact ⟨(ih _).1.trans (config_take g call).1, (ih _).2.trans (config_take g call).2⟩

variable [LawfulStableDiGraph G]

theorem view_new [LawfulBiHashMap M] (me : OffchainPublicKey) :
    view (InnerGraph.new me : InnerGraph G M) = KeyGraph.new me := by
  apply view_ext (represented_new me)
  · intro key
    show (∃ i, get_by_left (BiHashMap.insert me _ BiHashMap.empty : M) key = some i) ↔ key = me
    simp only [LawfulBiHashMap.left_insert, LawfulBiHashMap.left_empty]
    by_cases hkey : key = me
    · simp [hkey]
    · simp [hkey]
  · intro src dest w
    constructor
    · rintro ⟨e, a, b, _, _, he⟩
      have hnone := LawfulStableDiGraph.edge_add_node me (StableDiGraph.new : G) e
      rw [LawfulStableDiGraph.edge_new] at hnone
      cases hnone.symm.trans he
    · intro hnone
      cases hnone

theorem has_edge_eq {g : ChannelGraph G M} (h : Represented g.inner) (src dest : OffchainPublicKey) :
    g.has_edge src dest = ((view g.inner).edge src dest).isSome := by
  unfold ChannelGraph.has_edge
  split
  · next a b ha hb =>
    cases hfind : find_edge g.inner.graph a b with
    | none => rw [edge_of_find_none ha hb hfind]; rfl
    | some e =>
      obtain ⟨w, hw⟩ := edge_of_find h ha hb hfind
      rw [hw]
      rfl
  · next hnone =>
    cases hedge : (view g.inner).edge src dest with
    | none => rfl
    | some w =>
      obtain ⟨⟨a, ha⟩, b, hb⟩ := (view g.inner).ends hedge
      exact absurd hb (hnone a b ha)

variable [Observations W] [NodeHealth W F] [LinearOrder F] [Zero F] [One F] [LawfulBiHashMap M] [LawfulNodeHealth W]

theorem view_record_nodes_health (h : Represented s) (healths : List (OffchainPublicKey × F)) :
    view (s.record_nodes_health healths) =
      healths.foldl (fun k (node, health) => k.judge node health) (view s) := by
  induction healths generalizing s with
  | nil => rfl
  | cons x rest ih =>
    have hrest := ih (represented_changes h (changes_judge x.1 x.2 s))
    rw [view_judge h] at hrest
    exact hrest

theorem view_take {g : ChannelGraph G M} (h : Represented g.inner) (call : Call W F) :
    view (g.take call).inner = (view g.inner).take g.me g.max_plausible_loopback_rtt call := by
  cases call with
  | record_nodes_health healths => exact view_record_nodes_health h healths
  | write op =>
    cases op with
    | add_node key => exact view_add_node h key
    | remove_node key => exact view_remove_node h key
    | add_edge src dest =>
      have hadded := view_add_edge h src dest
      show view (g.call (.add_edge src dest)).inner = (view g.inner).add_edge src dest
      rw [ChannelGraph.call, ← hadded]
      cases g.inner.add_edge src dest with
      | ok inner => rfl
      | error e => rfl
    | remove_edge src dest => exact view_remove_edge h src dest
    | upsert_edge src dest f => exact view_upsert_edge h src dest f
    | record_edge now_ms update => exact view_record_edge h now_ms update

theorem view_takes {g : ChannelGraph G M} (h : Represented g.inner) (calls : List (Call W F)) :
    view (g.takes calls).inner = (view g.inner).takes g.me g.max_plausible_loopback_rtt calls := by
  induction calls generalizing g with
  | nil => rfl
  | cons call rest ih =>
    have hrest := ih (ChannelGraph.represented_take h call)
    rw [view_take h, (config_take g call).1, (config_take g call).2] at hrest
    exact hrest

/-- **Whatever calls are made, the channel graph is observed to be the graph of keys that they lead to**: its
nodes, their slots, the edges between them and what is known of each, and the edges that reports name; and
the call that has a result has that of the graph of keys. -/
theorem calls_refine (me : OffchainPublicKey) (max_plausible_loopback_rtt : Nat) (calls : List (Call W F)) :
    let g := (ChannelGraph.new me max_plausible_loopback_rtt : ChannelGraph G M).takes calls
    let k := (KeyGraph.new me).takes me max_plausible_loopback_rtt calls
    (∀ key, (g.inner.contains_node key = true ↔ key ∈ k.nodes) ∧
      ∀ slot, g.inner.path_slot key = some slot ↔ key ∈ k.nodes ∧ path_id.encode key = slot) ∧
    (∀ src dest, g.edge src dest = k.edge src dest ∧ g.has_edge src dest = (k.edge src dest).isSome) ∧
    (∀ update, List.Forall₂ (Joins g.inner) (resolved_edges g update) (k.named me update)) ∧ g.me = me ∧
    ∀ src dest, (g.inner.add_edge src dest).map (fun _ => ()) = k.added_edge src dest := by
  intro g k
  have hnew : Represented (ChannelGraph.new me max_plausible_loopback_rtt : ChannelGraph G M).inner :=
    represented_new me
  have hg : Represented g.inner := ChannelGraph.represented_takes hnew calls
  have hk : view g.inner = k := by
    refine (view_takes hnew calls).trans ?_
    rw [ChannelGraph.new, view_new]
  have hme : g.me = me := (config_takes _ calls).1
  have hnode : ∀ key, g.inner.contains_node key = true ↔ key ∈ k.nodes := by
    intro key
    rw [← hk]
    exact Option.isSome_iff_exists
  refine ⟨fun key => ⟨hnode key, ?_⟩, ?_, ?_, hme, ?_⟩
  · intro slot
    rw [← hnode, InnerGraph.path_slot]
    split
    · next hhere => simp only [hhere, Option.some.injEq, true_and]
    · next hgone => simp only [hgone, reduceCtorEq, false_and]
  · intro src dest
    rw [← hk]
    exact ⟨rfl, has_edge_eq hg src dest⟩
  · intro update
    rw [← hk, ← hme]
    exact named_joins hg update
  · intro src dest
    rw [← hk]
    exact add_edge_result g.inner src dest

end Calls

/-- A probe joins its neighbor to the local node, and a judgement leaves it so. -/
theorem calls_refine_probed : (((KeyGraph.new (.of 1) : KeyGraph
    (Weight.Observations Weight.RunningMean Weight.CountedRatio ℚ)).takes (.of 1) 0
      [.write (.record_edge 5 (.Neighbor (.of 2) 10)), .record_nodes_health [(.of 2, (1 / 2 : ℚ))]]).edge
        (.of 1) (.of 2)).isSome = true := by
  have hrefines := calls_refine (G := ListGraph OffchainPublicKey
    (Weight.Observations Weight.RunningMean Weight.CountedRatio ℚ)) (M := PairMap OffchainPublicKey NodeIndex)
    (.of 1) 0 [.write (.record_edge 5 (.Neighbor (.of 2) 10)), .record_nodes_health [(.of 2, (1 / 2 : ℚ))]]
  rw [← (hrefines.2.1 (.of 1) (.of 2)).2]
  decide +kernel

end KeyView

end Hopr.Graph
