import Hopr.Graph.Attribution

/-! What slots are resolved to, whoever sent them.

Bytes are resolved if they are a leg from the local node over others and back with
nothing but padding behind it, and to the edges of that leg (`loops_resolved`); a
round trip is resolved to the edges of two legs, the first slots of each, that meet
at the replier (`round_trips_resolved`). -/
namespace Hopr.Graph.Resolution
open StableDiGraph BiHashMap InnerGraph Graph.Representation SimplePaths PathKeys Loopback Attribution PathQueries

/-! ### Loops -/

section Loops
variable {G M W : Type} [StableDiGraph G OffchainPublicKey W] [BiHashMap M OffchainPublicKey NodeIndex]
  [LawfulStableDiGraph G] [LawfulBiHashMap M] [Observations W]

/-- Exactly the loops are resolved, and nothing is recorded for anything else. -/
theorem loops_resolved (g : ChannelGraph G M) (h : Represented g.inner) (bytes : List UInt8) :
    (∀ edges, g.inner.resolve_loopback_edges g.me bytes = some edges ↔
      ∃ between keys, LoopBytes g.me bytes between ∧
        Leg g.inner (path_id.encode g.me :: between ++ [path_id.encode g.me]) keys edges) ∧
    (¬ (∃ between keys edges, LoopBytes g.me bytes between ∧
        Leg g.inner (path_id.encode g.me :: between ++ [path_id.encode g.me]) keys edges) →
      g.inner.resolve_loopback_edges g.me bytes = none ∧
      ∀ now_ms, (∀ timestamp, g.record_edge now_ms (.Loopback bytes timestamp) = g) ∧
        g.record_edge now_ms (.ProbeLoopbackTimeout bytes) = g) := by
  refine ⟨fun edges => resolve_loopback_edges_iff h, ?_⟩
  intro hmalformed
  have hnone : g.inner.resolve_loopback_edges g.me bytes = none := by
    cases hedges : g.inner.resolve_loopback_edges g.me bytes with
    | none => rfl
    | some edges =>
      obtain ⟨between, keys, hloop⟩ := (resolve_loopback_edges_iff h).mp hedges
      exact absurd ⟨between, keys, edges, hloop⟩ hmalformed
  refine ⟨hnone, ?_⟩
  intro now_ms
  constructor
  · intro timestamp
    simp only [ChannelGraph.record_edge, hnone, ite_self]
  · simp only [ChannelGraph.record_edge, hnone, ite_self]

/-- The edges of the triangle are a loop. -/
theorem loops_resolved_triangle : ∃ between keys,
    LoopBytes (.of 1) (write_slots ⟨[path_id.encode (.of 1), path_id.encode (.of 2), path_id.encode (.of 3),
      path_id.encode (.of 1), 0], rfl⟩) between ∧
    Leg triangle.inner (path_id.encode (.of 1) :: between ++ [path_id.encode (.of 1)]) keys [⟨0⟩, ⟨1⟩, ⟨2⟩] := by
  have hrepresented : Represented triangle.inner := represented_calls (represented_new _) _
  exact ((loops_resolved triangle hrepresented _).1 [⟨0⟩, ⟨1⟩, ⟨2⟩]).mp (by decide +kernel)

end Loops

/-! ### Round trips -/

/-- Two ways that meet at a key, put together. -/
theorem zip_tail_join {K : Type} (before : List K) (key : K) (rest : List K) :
    (before ++ key :: rest).zip (before ++ key :: rest).tail =
      (before ++ [key]).zip (before ++ [key]).tail ++ (key :: rest).zip rest := by
  induction before with
  | nil => rfl
  | cons x before ih =>
    cases before with
    | nil => rfl
    | cons y before => exact congrArg ((x, y) :: ·) ih

section RoundTrips
variable {G M W : Type} [StableDiGraph G OffchainPublicKey W] [BiHashMap M OffchainPublicKey NodeIndex]
  [LawfulStableDiGraph G] [LawfulBiHashMap M] {s : InnerGraph G M}

/-- What a path was found with is a leg of its slots. -/
theorem simple_paths_leg {C R : Type} [LT C] [DecidableLT C] (h : Represented s) (hdistinct : Distinct s)
    {sh : Shuffle R (NodeIndex × W)} {rng : R} {source destination : OffchainPublicKey} {length : UInt64}
    {take_count : Option Nat} {value : ValueFn W C} {results : List (List OffchainPublicKey × PathId × C)}
    (hresults : s.simple_paths sh rng source destination length take_count value = some results)
    {nodes : List OffchainPublicKey} {slots : PathId} {cost : C} (hx : (nodes, slots, cost) ∈ results) :
    (source :: nodes ++ [destination]).map path_id.encode <+: slots.slots ∧
      path_id.encode destination ∉ (source :: nodes).map path_id.encode ∧ nodes.length + 1 = length.toNat ∧
      ∃ edges,
        Leg s ((source :: nodes ++ [destination]).map path_id.encode) (source :: nodes ++ [destination]) edges := by
  obtain ⟨hencodes, hmapped, hnodup, hchain, hlength⟩ := simple_paths_keys h hresults hx
  obtain ⟨edges, hjoins⟩ := edges_of_chain hchain
  have hfresh : path_id.encode destination ∉ (source :: nodes).map path_id.encode := by
    intro hmem
    obtain ⟨k, hk, hslot⟩ := List.mem_map.mp hmem
    have hdest := hmapped destination (List.mem_append_right _ (List.mem_singleton_self _))
    have hsame := hdistinct k destination (hmapped k (List.mem_append_left _ hk)) hdest hslot
    exact (List.nodup_append.mp hnodup).2.2 k hk destination (List.mem_singleton_self _) hsame
  exact ⟨⟨_, hencodes.2.symm⟩, hfresh, hlength, edges, claimed_of_distinct hdistinct hmapped, hjoins⟩

/-- The edges of a round trip are those of two legs that meet at the replier. -/
theorem legs_of_round_trip (h : Represented s) {me : OffchainPublicKey} (hme : Mapped s me)
    {paths : ForwardAndReturnPath} {edges : List EdgeIndex}
    (hedges : s.resolve_round_trip_edges me paths = some edges) :
    ∃ replier before between keys key keys' to_edges back_edges, Meets me paths replier before between ∧
      Claimant s replier key ∧ Leg s (before ++ [replier]) (keys ++ [key]) to_edges ∧
      Leg s (replier :: between ++ [path_id.encode me]) (key :: keys' ++ [me]) back_edges ∧
      (keys ++ [key]).head? = some me ∧ edges = to_edges ++ back_edges := by
  obtain ⟨replier, before, between, to_edges, back_edges, hmeets, hto, hback, rfl⟩ :=
    resolve_round_trip_edges_iff.mp hedges
  obtain ⟨walked, hback⟩ := (walk_edges_between h).mp hback
  obtain ⟨walked', home, rfl, hhome⟩ := claimed_concat hback.claimed
  cases hhome.2.2 me hme rfl
  obtain ⟨key, keys', rfl⟩ : ∃ key keys', walked' = key :: keys' := by
    cases walked' with
    | nil =>
      have hcount := hback.claimed.length_eq
      simp at hcount
    | cons key keys' => exact ⟨key, keys', rfl⟩
  have hreplier : Claimant s replier key := by
    cases hback.claimed with
    | cons hkey _ => exact hkey
  obtain ⟨first, rest, hfirst⟩ := List.exists_cons_of_ne_nil
    (List.append_ne_nil_of_right_ne_nil before (List.cons_ne_nil replier []))
  obtain rfl : first = path_id.encode me := by
    have hstart := hmeets.start
    obtain ⟨rest', hforward⟩ := hmeets.forward
    rw [← hforward, hfirst] at hstart
    exact Option.some.inj hstart
  rw [hfirst] at hto
  obtain ⟨keys, hleg⟩ := (leg_iff h).mpr ⟨⟨me, hhome⟩, hto⟩
  have hstart : keys.head? = some me := by
    cases hleg.claimed with
    | cons hkey _ => exact congrArg some (hkey.unique hhome)
  rw [← hfirst] at hleg
  obtain ⟨keys, key', rfl, hkey'⟩ := claimed_concat hleg.claimed
  cases hkey'.unique hreplier
  exact ⟨replier, before, between, keys, key, keys', to_edges, back_edges, hmeets, hreplier, hleg, hback, hstart, rfl⟩

/-- **A round trip over two paths of the graph is resolved to the edges of the one and then of the other**;
and whatever the slots of a round trip are, the edges it is resolved to lead over the first slots of both,
each the slot of one node, from the local node to the replier and back. -/
theorem round_trips_resolved {C R C' R' : Type} [LT C] [DecidableLT C] [LT C'] [DecidableLT C'] (h : Represented s)
    {me : OffchainPublicKey} (hme : Mapped s me) :
    (Distinct s → ∀ (sh : Shuffle R (NodeIndex × W)) (rng : R) (sh' : Shuffle R' (NodeIndex × W)) (rng' : R')
      (replier : OffchainPublicKey) (length length' : UInt64) (take_count take_count' : Option Nat)
      (value : ValueFn W C) (value' : ValueFn W C') (results : List (List OffchainPublicKey × PathId × C))
      (results' : List (List OffchainPublicKey × PathId × C')),
      s.simple_paths sh rng me replier length take_count value = some results →
      s.simple_paths sh' rng' replier me length' take_count' value' = some results' →
      ∀ nodes forward cost nodes' reply cost', (nodes, forward, cost) ∈ results → (nodes', reply, cost') ∈ results' →
        ∃ edges edges', s.resolve_round_trip_edges me ⟨forward, reply⟩ = some (edges ++ edges') ∧
          edges.length = length.toNat ∧ edges'.length = length'.toNat ∧
          List.Forall₂ (Joins s) edges ((me :: nodes ++ [replier]).zip (nodes ++ [replier])) ∧
          List.Forall₂ (Joins s) edges' ((replier :: nodes' ++ [me]).zip (nodes' ++ [me]))) ∧
    ∀ (paths : ForwardAndReturnPath) (edges : List EdgeIndex), s.resolve_round_trip_edges me paths = some edges →
      ∃ replier before between keys key keys' to_edges back_edges, Meets me paths replier before between ∧
        Claimant s replier key ∧ Leg s (before ++ [replier]) (keys ++ [key]) to_edges ∧
        Leg s (replier :: between ++ [path_id.encode me]) (key :: keys' ++ [me]) back_edges ∧
        edges = to_edges ++ back_edges ∧ (keys ++ key :: keys' ++ [me]).head? = some me ∧
        List.Forall₂ (Joins s) edges ((keys ++ key :: keys' ++ [me]).zip (keys ++ key :: keys' ++ [me]).tail) := by
  constructor
  · intro hdistinct sh rng sh' rng' replier length length' take_count take_count' value value' results results'
      hresults hresults' nodes forward cost nodes' reply cost' hx hx'
    obtain ⟨hforward, hfresh, hlength, edges, hleg⟩ := simple_paths_leg h hdistinct hresults hx
    obtain ⟨hreply, hfresh', hlength', edges', hleg'⟩ := simple_paths_leg h hdistinct hresults' hx'
    rw [List.map_append, List.map_singleton] at hforward hreply hleg hleg'
    have hmeets : Meets me ⟨forward, reply⟩ (path_id.encode replier) ((me :: nodes).map path_id.encode)
        (nodes'.map path_id.encode) := by
      constructor
      case start =>
        obtain ⟨rest, hslots⟩ := hforward
        exact congrArg List.head? hslots.symm
      case forward => exact hforward
      case reply => exact hreply
      case first => exact hfresh
      case first_home => exact fun hmem => hfresh' (List.mem_cons_of_mem _ hmem)
    have hto := ((leg_iff h).mp ⟨_, hleg⟩).2
    have hback := ((leg_iff h).mp ⟨_, hleg'⟩).2
    have hcount := hleg.length_edges
    have hcount' := hleg'.length_edges
    rw [List.length_append, List.length_map, List.length_cons, List.length_singleton] at hcount hcount'
    exact ⟨edges, edges', resolve_round_trip_edges_iff.mpr ⟨_, _, _, edges, edges', hmeets, hto, hback, rfl⟩,
      by omega, by omega, hleg.joined, hleg'.joined⟩
  · intro paths edges hedges
    obtain ⟨replier, before, between, keys, key, keys', to_edges, back_edges, hmeets, hreplier, hto, hback, hstart,
      rfl⟩ := legs_of_round_trip h hme hedges
    refine ⟨replier, before, between, keys, key, keys', to_edges, back_edges, hmeets, hreplier, hto, hback, rfl, ?_, ?_⟩
    · cases keys with
      | nil => exact hstart
      | cons first keys => exact hstart
    · rw [List.append_assoc, List.cons_append, zip_tail_join]
      exact List.rel_append hto.joined hback.joined

end RoundTrips

/-- From a node of the triangle to the one after the next, and back over the edge between. -/
theorem round_trips_resolved_triangle : ∃ edges edges',
    triangle.inner.resolve_round_trip_edges (.of 1)
      ⟨⟨[path_id.encode (.of 1), path_id.encode (.of 2), path_id.encode (.of 3), 0, 0], rfl⟩,
        ⟨[path_id.encode (.of 3), path_id.encode (.of 1), 0, 0, 0], rfl⟩⟩ = some (edges ++ edges') ∧
      edges.length = 2 ∧ edges'.length = 1 := by
  have hrepresented : Represented triangle.inner := represented_calls (represented_new _) _
  have hdistinct : Distinct triangle.inner := distinct_of_nodes hrepresented (by decide +kernel)
  have hme : Mapped triangle.inner (.of 1) := ⟨⟨0⟩, by decide +kernel⟩
  have hforward : triangle.inner.simple_paths (Shuffle.keep _) () (.of 1) (.of 3) 2 none
      (ValueFn.edges _) = some [([.of 2], ⟨[path_id.encode (.of 1),
        path_id.encode (.of 2), path_id.encode (.of 3), 0, 0], rfl⟩, 2)] := by
    decide +kernel
  have hreply : triangle.inner.simple_paths (Shuffle.keep _) () (.of 3) (.of 1) 1 none
      (ValueFn.edges _) = some [([], ⟨[path_id.encode (.of 3),
        path_id.encode (.of 1), 0, 0, 0], rfl⟩, 1)] := by
    decide +kernel
  obtain ⟨edges, edges', hedges, hlength, hlength', _⟩ := (round_trips_resolved hrepresented hme).1 hdistinct
    (Shuffle.keep _) () (Shuffle.keep _) () (.of 3) 2 1 none none _ _ _ _ hforward hreply _ _ _ _ _ _
    List.mem_cons_self List.mem_cons_self
  exact ⟨edges, edges', hedges, hlength, hlength'⟩

end Hopr.Graph.Resolution
