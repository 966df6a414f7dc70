import Mathlib.Data.List.Forall2
import Hopr.Graph.Representation
import Hopr.Graph.SimplePaths
import Hopr.Graph.Traverse

/-! The keys of a path and its identifier.

The vertices along a path are those of keys (`Keyed`), and the path's identifier
has the slots of the keys in order, padded (`Encodes`). What `find_paths` finds
are the keys behind the source of a path that was asked for, and its identifier
(`find_paths_spec`). -/
namespace Hopr.Graph.PathKeys
open StableDiGraph BiHashMap InnerGraph Graph.Representation SimplePaths

/-- The slots of the keys, padded. -/
def Encodes (slots : PathId) (keys : List OffchainPublicKey) : Prop :=
  keys.length ≤ 5 ∧ slots.slots = keys.map path_id.encode ++ List.replicate (5 - keys.length) 0

theorem encodes_zeros : Encodes PathId.zeros [] := ⟨Nat.zero_le _, rfl⟩

/-- The first slot that pads is given to one more key. -/
theorem Encodes.set {slots : PathId} {keys : List OffchainPublicKey} (h : Encodes slots keys)
    (hroom : keys.length < 5) (key : OffchainPublicKey) :
    Encodes (slots.set keys.length (path_id.encode key)) (keys ++ [key]) := by
  have hlength : (keys ++ [key]).length = keys.length + 1 := List.length_append
  refine ⟨by omega, ?_⟩
  show slots.slots.set keys.length (path_id.encode key) = _
  have hleft : 5 - keys.length = 5 - (keys.length + 1) + 1 := by omega
  have hmap : (keys.map path_id.encode).length ≤ keys.length := by rw [List.length_map]
  rw [h.2, hlength, hleft, List.replicate_succ, List.set_append_right _ _ hmap, List.length_map,
    Nat.sub_self, List.set_cons_zero, List.map_append, List.append_assoc]
  rfl

section Keys
variable {G M W : Type} [BiHashMap M OffchainPublicKey NodeIndex]

/-- The vertices are those of the keys. -/
def Keyed (s : InnerGraph G M) : List NodeIndex → List OffchainPublicKey → Prop :=
  List.Forall₂ fun i key => get_by_right s.indices i = some key

variable {s : InnerGraph G M}

theorem Keyed.filterMap {path : List NodeIndex} {keys : List OffchainPublicKey} (h : Keyed s path keys) :
    path.filterMap (get_by_right s.indices) = keys := by
  induction h with
  | nil => rfl
  | cons hkey _ ih => rw [List.filterMap_cons_some hkey, ih]

theorem Keyed.tail {path : List NodeIndex} {keys : List OffchainPublicKey} (h : Keyed s path keys) :
    Keyed s path.tail keys.tail := by
  cases h with
  | nil => exact .nil
  | cons _ hrest => exact hrest

theorem Keyed.of_mem {path : List NodeIndex} {keys : List OffchainPublicKey} (h : Keyed s path keys)
    {key : OffchainPublicKey} (hmem : key ∈ keys) : ∃ i ∈ path, get_by_right s.indices i = some key := by
  induction h with
  | nil => cases hmem
  | cons hkey _ ih =>
    cases List.mem_cons.mp hmem with
    | inl heq => exact ⟨_, List.mem_cons_self, heq ▸ hkey⟩
    | inr hrest =>
      obtain ⟨i, hi, hkey⟩ := ih hrest
      exact ⟨i, List.mem_cons_of_mem _ hi, hkey⟩

theorem Keyed.of_last {path : List NodeIndex} {keys : List OffchainPublicKey} (h : Keyed s path keys)
    {key : OffchainPublicKey} (hlast : key ∈ keys.getLast?) :
    ∃ i ∈ path.getLast?, get_by_right s.indices i = some key := by
  induction h with
  | nil => cases hlast
  | cons hkey hrest ih =>
    cases hrest with
    | nil =>
      cases hlast
      exact ⟨_, rfl, hkey⟩
    | cons _ _ => exact ih hlast

/-- One slot after the other is filled. -/
theorem fill_slots {path : List NodeIndex} {before : List OffchainPublicKey} {slots slots' : PathId}
    (hslots : Encodes slots before)
    (hfill : (path.zipIdx before.length).foldlM s.fill_slot slots = some slots') :
    ∃ keys, Keyed s path keys ∧ Encodes slots' (before ++ keys) := by
  induction path generalizing before slots with
  | nil =>
    cases hfill
    exact ⟨[], .nil, by rwa [List.append_nil]⟩
  | cons i rest ih =>
    rw [List.zipIdx_cons, List.foldlM_cons] at hfill
    obtain ⟨filled, hone, hrest⟩ := Option.bind_eq_some_iff.mp hfill
    unfold fill_slot at hone
    split at hone
    · cases hone
    · next hroom =>
      obtain ⟨key, hkey, hset⟩ := Option.bind_eq_some_iff.mp hone
      cases hset
      have hfilled := hslots.set (Nat.lt_of_not_le hroom) key
      have hlength : (before ++ [key]).length = before.length + 1 := List.length_append
      rw [← hlength] at hrest
      obtain ⟨keys, hkeys, hall⟩ := ih hfilled hrest
      exact ⟨key :: keys, .cons hkey hkeys, by rwa [List.append_cons]⟩

theorem Keyed.nodup [LawfulBiHashMap M] {path : List NodeIndex} {keys : List OffchainPublicKey}
    (h : Keyed s path keys) (hpath : path.Nodup) : keys.Nodup := by
  induction h with
  | nil => exact .nil
  | cons hkey hrest ih =>
    rw [List.nodup_cons] at hpath
    refine List.nodup_cons.mpr ⟨?_, ih hpath.2⟩
    intro hmem
    obtain ⟨j, hj, hkey'⟩ := Keyed.of_mem hrest hmem
    rw [← LawfulBiHashMap.left_iff_right] at hkey hkey'
    exact hpath.1 (Option.some.inj (hkey.symm.trans hkey') ▸ hj)

/-- The keys behind the source of a path, with its identifier. -/
theorem found_spec {C : Type} {length : UInt64} {item : List NodeIndex × C}
    {x : List OffchainPublicKey × PathId × C} (h : s.found length item = some x) :
    ∃ keys, Keyed s item.1 keys ∧ Encodes x.2.1 keys ∧ x.1 = keys.tail ∧ x.1.length = length.toNat := by
  obtain ⟨slots, hfill, hrest⟩ := Option.bind_eq_some_iff.mp h
  obtain ⟨keys, hkeys, hencodes⟩ := fill_slots encodes_zeros hfill
  dsimp only at hrest
  rw [hkeys.tail.filterMap] at hrest
  split at hrest
  · next hlength =>
    cases hrest
    exact ⟨keys, hkeys, hencodes, rfl, hlength⟩
  · cases hrest

end Keys

/-! ### The graph that is searched -/

section Room
variable {G W C : Type} [StableDiGraph G OffchainPublicKey W]

/-- A search for paths of a length has room for their nodes. -/
def HasRoom (G : Type) [StableDiGraph G OffchainPublicKey W] (length : UInt64) (value : ValueFn W C) : Prop :=
  fits (length + 1) (edges_size G) ∧ fits (length + 1) value.value_size

instance HasRoom.decidable (length : UInt64) (value : ValueFn W C) : Decidable (HasRoom G length value) :=
  inferInstanceAs (Decidable (_ ∧ _))

/-- A path of up to three edges has room, whatever the size of an entry. -/
theorem HasRoom.of_short [LawfulStableDiGraph G] {length : UInt64} (value : ValueFn W C)
    (hshort : length.toNat ≤ 3) : HasRoom G length value := by
  have hnodes : (length + 1).toNat ≤ 4 := by
    rw [UInt64.toNat_add]
    have hone : (1 : UInt64).toNat = 1 := rfl
    omega
  have hfits : ∀ size, size < 2 ^ 61 → fits (length + 1) size := by
    intro size hsize
    calc (length + 1).toNat * size ≤ 4 * size := Nat.mul_le_mul_right size hnodes
      _ < 2 ^ 63 := by omega
  exact ⟨hfits _ LawfulStableDiGraph.edges_size_lt, hfits _ value.value_size_lt⟩

end Room

section Searched
variable {G M W C R : Type} [StableDiGraph G OffchainPublicKey W] {s : InnerGraph G M}
  (sh : Shuffle R (NodeIndex × W)) (rng : R) (source : NodeIndex) (destinations : Finset NodeIndex) {length : UInt64}
  (take_count : Option Nat) (value : ValueFn W C)

theorem has_room_iff (s : InnerGraph G M) :
    (paths_query source destinations length value).has_room s.searched ↔ HasRoom G length value := by
  have hnodes : (paths_query source destinations length value).max_nodes s.searched = length + 1 := by
    show length - 1 + 2 = length + 1
    apply UInt64.toNat_inj.mp
    simp only [UInt64.toNat_add, UInt64.toNat_sub]
    have hone : (1 : UInt64).toNat = 1 := rfl
    have htwo : (2 : UInt64).toNat = 2 := rfl
    omega
  unfold Query.has_room HasRoom
  rw [hnodes]
  rfl

variable [LawfulStableDiGraph G]

theorem mem_searched {a b : NodeIndex} {w : W} :
    (b, w) ∈ s.searched.edges_directed a ↔ ∃ e, edge s.graph e = some (a, b, w) := by
  unfold InnerGraph.searched
  rw [List.mem_filterMap]
  constructor
  · intro ⟨e, hout, he⟩
    obtain ⟨b', w', hedge⟩ := LawfulStableDiGraph.mem_outgoing.mp hout
    rw [hedge] at he
    cases he
    exact ⟨e, hedge⟩
  · intro ⟨e, hedge⟩
    exact ⟨e, LawfulStableDiGraph.mem_outgoing.mpr ⟨b, w, hedge⟩, by rw [hedge, Option.map_some]⟩

variable [BiHashMap M OffchainPublicKey NodeIndex]

/-- The structures agree, so no two edges are parallel. -/
def digraph (h : Represented s) : DiGraph NodeIndex W where
  toIntoEdgesDirected := s.searched
  nodup := LawfulStableDiGraph.nodup_node_indices s.graph
  source_mem := by
    intro a x hx
    obtain ⟨e, he⟩ := mem_searched.mp hx
    obtain ⟨key, hkey⟩ := (h.ends he).1
    exact LawfulStableDiGraph.mem_node_indices.mpr (h.occupied hkey)
  target_mem := by
    intro a x hx
    obtain ⟨e, he⟩ := mem_searched.mp hx
    obtain ⟨key, hkey⟩ := (h.ends he).2
    exact LawfulStableDiGraph.mem_node_indices.mpr (h.occupied hkey)
  simple := by
    intro a
    unfold InnerGraph.searched
    rw [List.Nodup, List.pairwise_map, List.pairwise_filterMap]
    apply (LawfulStableDiGraph.nodup_outgoing s.graph a).imp_of_mem
    intro e e' hout hout' hne x hx x' hx' heq
    obtain ⟨b, w, he⟩ := LawfulStableDiGraph.mem_outgoing.mp hout
    obtain ⟨b', w', he'⟩ := LawfulStableDiGraph.mem_outgoing.mp hout'
    rw [he] at hx
    rw [he'] at hx'
    cases hx
    cases hx'
    cases heq
    exact hne (h.apart he he')

theorem toNat_sub_one (hpos : length ≠ 0) : (length - 1).toNat + 1 = length.toNat := by
  have hne : length.toNat ≠ 0 := fun hzero => hpos (UInt64.toNat_inj.mp hzero)
  have hone : (1 : UInt64).toNat = 1 := rfl
  rw [UInt64.toNat_sub_of_le]
  · omega
  · rw [UInt64.le_iff_toNat_le]
    omega

variable [LT C] [DecidableLT C]

/-- The search for paths of a length is exact. -/
theorem paths_exact (h : Represented s) (hpos : length ≠ 0) (hlength : length.toNat + 1 < 2 ^ 64)
    (hroom : HasRoom G length value) :
    ∃ items, all_simple_paths_multi s.searched (paths_query source destinations length value) sh rng =
      some items ∧ Exact (digraph h) (paths_query source destinations length value) items := by
  have hlt := toNat_sub_one hpos
  apply exact_of_bounds (g := digraph h)
  · exact (has_room_iff source destinations value s).mpr hroom
  · show (length - 1).toNat + 2 < 2 ^ 64
    omega
  · intro l hl
    cases hl
    omega
  · exact .inr ⟨length - 1, rfl, by omega⟩

/-- With room there is an outcome, also of a search that is cut short. -/
theorem find_paths_some (h : Represented s) (hroom : HasRoom G length value) :
    ∃ results, s.find_paths sh rng source destinations length take_count value = some results := by
  unfold InnerGraph.find_paths
  by_cases hpos : length = 0
  · exact ⟨[], by rw [if_pos hpos]⟩
  · obtain ⟨items, hitems⟩ := search_ends (digraph h) (paths_query source destinations length value) sh rng
      ((has_room_iff source destinations value s).mpr hroom)
    have hitems : all_simple_paths_multi s.searched (paths_query source destinations length value) sh rng =
        some items := hitems
    rw [if_neg hpos, hitems]
    cases take_count with
    | none => exact ⟨_, rfl⟩
    | some take_count => exact ⟨_, rfl⟩

variable {sh rng source destinations take_count value}

/-- What was found is a path that was asked for, without its source, and its identifier. -/
theorem find_paths_spec (h : Represented s) {results : List (List OffchainPublicKey × PathId × C)}
    (hresults : s.find_paths sh rng source destinations length take_count value = some results)
    {x : List OffchainPublicKey × PathId × C} (hx : x ∈ results) :
    ∃ steps keys, Wanted (digraph h) (paths_query source destinations length value) steps ∧
      Keyed s (source :: steps.map Prod.fst) keys ∧ Encodes x.2.1 keys ∧
      x.1 = keys.tail ∧ x.1.length = length.toNat := by
  unfold InnerGraph.find_paths at hresults
  split at hresults
  · cases hresults
    cases hx
  · next hpos =>
    obtain ⟨items, hitems, htaken⟩ := Option.bind_eq_some_iff.mp hresults
    have hmem : x ∈ items.filterMap (s.found length) := by
      cases take_count with
      | none =>
        cases htaken
        exact hx
      | some take_count =>
        cases htaken
        exact List.mem_of_mem_take hx
    obtain ⟨⟨path, cost⟩, hitem, hfound⟩ := List.mem_filterMap.mp hmem
    obtain ⟨keys, hkeyed, hencodes, htail, hlength⟩ := found_spec hfound
    have hshort := hencodes.1
    have hcount := congrArg List.length htail
    rw [List.length_tail] at hcount
    have hroom := (has_room_iff source destinations value s).mp (has_room_of_some ⟨items, hitems, hitem⟩)
    obtain ⟨items', hitems', hexact⟩ := paths_exact sh rng source destinations value h hpos (by omega) hroom
    cases hitems.symm.trans hitems'
    obtain ⟨steps, hwanted, hpath, _⟩ := (hexact.mem path cost).mp hitem
    cases hpath
    exact ⟨steps, keys, hwanted, hkeyed, hencodes, htail, hlength⟩

end Searched

end Hopr.Graph.PathKeys
