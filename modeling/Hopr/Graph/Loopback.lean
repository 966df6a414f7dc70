import Hopr.Graph.Legs

/-! Loops are resolved to the edges they were made of.

A loop of keys that are joined by edges one after the other is resolved to those
edges (`resolve_loop`), if no other node has the slot of one of them. The loops
that are made for the prober are joined in this way (`loops_joined`), also at
the end. So the bytes of their identifiers are resolved to their edges, and the
prober routes a packet over their nodes (`loopback_round_trip`). -/
namespace Hopr.Graph.Loopback
open StableDiGraph BiHashMap InnerGraph Graph.Representation SimplePaths PathKeys Resolution

/-! ### Loops of keys -/

/-- A loop is resolved, if the local node is nowhere on it but at its ends. -/
theorem resolve_loop {G M W : Type} [StableDiGraph G OffchainPublicKey W] [BiHashMap M OffchainPublicKey NodeIndex]
    [LawfulStableDiGraph G] [LawfulBiHashMap M] {s : InnerGraph G M} (h : Represented s) (hdistinct : Distinct s)
    {me : OffchainPublicKey} {nodes : List OffchainPublicKey} {slots : PathId}
    (hslots : Encodes slots (me :: nodes ++ [me])) (hme : ∀ k ∈ nodes, path_id.encode k ≠ path_id.encode me)
    (hmapped : ∀ k ∈ me :: nodes, Mapped s k) (hne : nodes ≠ [])
    (hjoined : (me :: nodes ++ [me]).IsChain (Joined s)) :
    ∃ edges, s.resolve_loopback_edges me (write_slots slots) = some edges ∧
      List.Forall₂ (Joins s) edges ((me :: nodes ++ [me]).zip (nodes ++ [me])) := by
  obtain ⟨edges, hedges⟩ := edges_of_chain hjoined
  have hkeys : ∀ k ∈ me :: nodes ++ [me], Mapped s k := by
    intro k hk
    cases List.mem_append.mp hk with
    | inl hmem => exact hmapped k hmem
    | inr hlast => exact List.mem_singleton.mp hlast ▸ hmapped me List.mem_cons_self
  have hclaimed := claimed_of_distinct hdistinct hkeys
  rw [List.map_append] at hclaimed
  have hbytes : LoopBytes me (write_slots slots) (nodes.map path_id.encode) := by
    constructor
    case length => exact length_write_slots slots
    case slots =>
      refine ⟨5 - (me :: nodes ++ [me]).length, ?_⟩
      rw [read_write_slots, hslots.2, List.map_append, List.append_assoc]
      rfl
    case nonempty => exact mt List.map_eq_nil_iff.mp hne
    case fresh =>
      intro hmem
      obtain ⟨k, hk, hslot⟩ := List.mem_map.mp hmem
      exact hme k hk hslot
  exact ⟨edges, (resolve_loopback_edges_iff h).mpr ⟨_, me :: nodes ++ [me], hbytes, hclaimed, hedges⟩, hedges⟩

/-! ### Loops of a channel graph -/

theorem edge_of_connected_neighbor {G M W : Type} [StableDiGraph G OffchainPublicKey W]
    [LawfulStableDiGraph G] [Observations W] {s : InnerGraph G M} {me_idx i : NodeIndex}
    (hi : i ∈ s.connected_neighbors me_idx) : ∃ e w, edge s.graph e = some (i, me_idx, w) := by
  unfold connected_neighbors at hi
  rw [List.mem_toFinset] at hi
  obtain ⟨e, hin, he⟩ := List.mem_filterMap.mp (List.mem_filter.mp hi).1
  obtain ⟨a, w, hedge⟩ := LawfulStableDiGraph.mem_incoming.mp hin
  rw [hedge] at he
  cases he
  exact ⟨e, w, hedge⟩

section Loops
variable {G M W : Type} [StableDiGraph G OffchainPublicKey W] [BiHashMap M OffchainPublicKey NodeIndex]
  [LawfulStableDiGraph G] [LawfulBiHashMap M] {s : InnerGraph G M}

/-- The keys along a walk are joined. -/
theorem joined_of_walk (h : Represented s) {i : NodeIndex} {steps : List (NodeIndex × W)}
    (hwalk : Walk (digraph h) i steps) {keys : List OffchainPublicKey}
    (hkeys : Keyed s (i :: steps.map Prod.fst) keys) : keys.IsChain (Joined s) := by
  induction steps generalizing i keys with
  | nil =>
    cases hkeys with
    | cons _ hrest =>
      cases hrest
      exact .singleton _
  | cons step rest ih =>
    cases hkeys with
    | cons hkey hrest =>
      have hchain := ih hwalk.2 hrest
      cases hrest with
      | cons hkey' _ =>
        obtain ⟨e, he⟩ := mem_searched.mp hwalk.1
        rw [← LawfulBiHashMap.left_iff_right] at hkey hkey'
        exact .cons_cons ⟨e, _, _, _, hkey, hkey', he⟩ hchain

variable [Observations W] {C R : Type} [LT C] [DecidableLT C]

/-- A loop for the prober: so many nodes besides the local one, which is at both ends, joined one
after the other. -/
theorem loops_joined {g : ChannelGraph G M} (h : Represented g.inner) {sh : Shuffle R (NodeIndex × W)}
    {rng : R} {hops : UInt64} {take_count : Option Nat} {value : UInt64 → ValueFn W C}
    {results : List (List OffchainPublicKey × PathId)}
    (hresults : g.simple_loopback_to_self sh rng hops take_count value = some results)
    {x : List OffchainPublicKey × PathId} (hx : x ∈ results) :
    ∃ nodes, x.1 = nodes ++ [g.me] ∧ nodes.length = hops.toNat ∧ 2 ≤ hops.toNat ∧ hops.toNat ≤ 3 ∧
      (g.me :: nodes).Nodup ∧ (∀ k ∈ g.me :: nodes, Mapped g.inner k) ∧
      Encodes x.2 (g.me :: nodes ++ [g.me]) ∧ (g.me :: nodes ++ [g.me]).IsChain (Joined g.inner) := by
  unfold ChannelGraph.simple_loopback_to_self at hresults
  split at hresults
  · next hhops =>
    have hmin : 2 ≤ hops.toNat := UInt64.le_iff_toNat_le.mp hhops.1
    have hmax : hops.toNat ≤ 3 := UInt64.le_iff_toNat_le.mp hhops.2
    split at hresults
    · cases hresults
      cases hx
    · next me_idx hme =>
      obtain ⟨paths, hpaths, hclosed⟩ := Option.bind_eq_some_iff.mp hresults
      cases hclosed
      obtain ⟨y, hy, hclose⟩ := List.mem_filterMap.mp hx
      obtain ⟨steps, keys, hwanted, hkeyed, hencodes, htail, hlength⟩ := find_paths_spec h hpaths hy
      have hme' : get_by_right g.inner.indices me_idx = some g.me := LawfulBiHashMap.left_iff_right.mp hme
      have hnodup := hkeyed.nodup hwanted.simple
      have hmapped : ∀ k ∈ keys, Mapped g.inner k := by
        intro k hk
        obtain ⟨i, _, hkey⟩ := hkeyed.of_mem hk
        exact ⟨i, LawfulBiHashMap.left_iff_right.mpr hkey⟩
      have hchain := joined_of_walk h hwanted.walk hkeyed
      have hclosing : ∀ k ∈ keys.getLast?, Joined g.inner k g.me := by
        intro k hk
        obtain ⟨i, hi, hkey⟩ := hkeyed.of_last hk
        have hne : steps.map Prod.fst ≠ [] := fun hnil => hwanted.nonempty (List.map_eq_nil_iff.mp hnil)
        rw [List.getLast?_cons_of_ne_nil hne] at hi
        obtain ⟨e, w, he⟩ := edge_of_connected_neighbor (hwanted.target i hi)
        exact ⟨e, i, me_idx, w, LawfulBiHashMap.left_iff_right.mpr hkey, hme, he⟩
      obtain ⟨nodes, rfl⟩ : ∃ nodes, keys = g.me :: nodes := by
        cases hkeyed with
        | cons hkey _ => exact ⟨_, congrArg (· :: _) (Option.some.inj (hkey.symm.trans hme'))⟩
      rw [List.tail_cons] at htail
      rw [htail] at hlength
      have hlast : (g.me :: nodes).length = nodes.length + 1 := List.length_cons
      unfold close_loop at hclose
      dsimp only at hclose
      rw [htail, if_neg (by omega)] at hclose
      cases hclose
      refine ⟨nodes, rfl, hlength, hmin, hmax, hnodup, hmapped, ?_, ?_⟩
      · rw [← hlast]
        exact hencodes.set (by omega) g.me
      · refine List.isChain_append.mpr ⟨hchain, .singleton _, ?_⟩
        intro k hk k' hk'
        cases hk'
        exact hclosing k hk
  · cases hresults
    cases hx

/-- The bytes of a loop's identifier lead to its edges, and the prober's route to its nodes. -/
theorem loopback_round_trip (me : OffchainPublicKey) (max_plausible_loopback_rtt : Nat)
    (ops : List (Operation W)) (sh : Shuffle R (NodeIndex × W)) (rng : R) (hops : UInt64)
    (take_count : Option Nat) (value : UInt64 → ValueFn W C) :
    let g := (ChannelGraph.new me max_plausible_loopback_rtt : ChannelGraph G M).calls ops
    ∃ results, g.simple_loopback_to_self sh rng hops take_count value = some results ∧
      ∀ path slots, (path, slots) ∈ results → Distinct g.inner → ∃ nodes edges,
        (me :: nodes).Nodup ∧ nodes.length = hops.toNat ∧ path = nodes ++ [me] ∧
        g.inner.resolve_loopback_edges me (write_slots slots) = some edges ∧
        edges.length = hops.toNat + 1 ∧
        List.Forall₂ (Joins g.inner) edges ((me :: nodes ++ [me]).zip (nodes ++ [me])) ∧
        strip_loopback_endpoints path me = nodes ∧ loopback_routing nodes = some nodes := by
  intro g
  have hg : Represented g.inner := represented_calls (represented_new me) ops
  have hme : g.me = me := ChannelGraph.me_calls _ ops
  have hsome : ∃ results, g.simple_loopback_to_self sh rng hops take_count value = some results := by
    unfold ChannelGraph.simple_loopback_to_self
    split
    · next hhops =>
      split
      · exact ⟨[], rfl⟩
      · next me_idx _ =>
        have hroom := HasRoom.of_short (G := G) (value (hops + 1)) (UInt64.le_iff_toNat_le.mp hhops.2)
        obtain ⟨paths, hpaths⟩ := find_paths_some sh rng me_idx
          (g.inner.connected_neighbors me_idx) take_count (value (hops + 1)) hg hroom
        exact ⟨_, by rw [hpaths]; rfl⟩
    · exact ⟨[], rfl⟩
  obtain ⟨results, hresults⟩ := hsome
  refine ⟨results, hresults, ?_⟩
  intro path slots hx hdistinct
  obtain ⟨nodes, hpath, hlength, hmin, hmax, hnodup, hmapped, hencodes, hjoined⟩ :=
    loops_joined hg hresults hx
  rw [hme] at hpath hnodup hmapped hencodes hjoined
  have hfresh := (List.nodup_cons.mp hnodup).1
  have hother : ∀ k ∈ nodes, path_id.encode k ≠ path_id.encode me := by
    intro k hk hslot
    have hsame := hdistinct k me (hmapped k (List.mem_cons_of_mem _ hk)) (hmapped me List.mem_cons_self) hslot
    exact hfresh (hsame ▸ hk)
  have hne : nodes ≠ [] := by
    intro hnil
    rw [hnil, List.length_nil] at hlength
    omega
  obtain ⟨edges, hedges, hjoins⟩ := resolve_loop hg hdistinct hencodes hother hmapped hne hjoined
  have hcount := hjoins.length_eq
  simp only [List.length_zip, List.length_append, List.length_cons, List.length_nil, List.cons_append]
    at hcount
  have hstrip : strip_loopback_endpoints path me = nodes := by
    have hhead : nodes.head? ≠ some me := fun hh => hfresh (List.mem_of_mem_head? hh)
    dsimp only at hpath
    unfold strip_loopback_endpoints
    dsimp only
    rw [hpath, List.getLast?_concat, if_pos rfl, List.dropLast_concat, if_neg hhead]
  have hrouting : loopback_routing nodes = some nodes := by
    unfold loopback_routing
    rw [if_pos]
    show nodes.length ≤ 3
    omega
  exact ⟨nodes, edges, hnodup, hlength, hpath, hedges, by omega, hjoins, hstrip, hrouting⟩

end Loops

/-! ### A loop of two hops -/

/-- Three nodes with an edge to the next one each, the first being the local node. -/
def triangle : ChannelGraph (ListGraph OffchainPublicKey (List EdgeWeightType))
    (PairMap OffchainPublicKey NodeIndex) :=
  (ChannelGraph.new (.of 1) 0).calls
    [.upsert_edge (.of 1) (.of 2) id, .upsert_edge (.of 2) (.of 3) id, .upsert_edge (.of 3) (.of 1) id]

theorem distinct_of_nodes {W : Type}
    {s : InnerGraph (ListGraph OffchainPublicKey W) (PairMap OffchainPublicKey NodeIndex)}
    (h : Represented s) (hnodes : ∀ k ∈ s.graph.nodes, ∀ k' ∈ s.graph.nodes,
      path_id.encode k = path_id.encode k' → k = k') : Distinct s := by
  intro k k' ⟨i, hi⟩ ⟨j, hj⟩
  exact hnodes k (List.mem_of_getElem? (h.weight hi)) k' (List.mem_of_getElem? (h.weight hj))

theorem loopback_round_trip_triangle : ∃ slots edges,
    triangle.simple_loopback_to_self (Shuffle.keep _) () 2 none
      (fun _ => ValueFn.edges _) =
      some [([.of 2, .of 3, .of 1], slots)] ∧
    triangle.inner.resolve_loopback_edges (.of 1) (write_slots slots) = some edges ∧ edges.length = 3 := by
  have hloops : triangle.simple_loopback_to_self (Shuffle.keep _) () 2 none
      (fun _ => ValueFn.edges _) =
      some [([.of 2, .of 3, .of 1], ⟨[path_id.encode (.of 1), path_id.encode (.of 2),
        path_id.encode (.of 3), path_id.encode (.of 1), 0], rfl⟩)] := by
    decide +kernel
  have hdistinct : Distinct triangle.inner :=
    distinct_of_nodes (represented_calls (represented_new _) _) (by decide +kernel)
  obtain ⟨results, hresults, hall⟩ := loopback_round_trip
    (G := ListGraph OffchainPublicKey (List EdgeWeightType)) (M := PairMap OffchainPublicKey NodeIndex) (.of 1) 0
    [.upsert_edge (.of 1) (.of 2) id, .upsert_edge (.of 2) (.of 3) id, .upsert_edge (.of 3) (.of 1) id]
    (Shuffle.keep _) () 2 none (fun _ => ValueFn.edges _)
  cases hloops.symm.trans hresults
  obtain ⟨nodes, edges, _, _, _, hedges, hcount, _⟩ := hall _ _ List.mem_cons_self hdistinct
  exact ⟨_, edges, hloops, hedges, hcount⟩

end Hopr.Graph.Loopback
