import Hopr.Graph.Loopback

/-! Queries for the paths of a length.

A path of so many edges is `Asked` for by its source, its targets and the minimum
of the value function. Each path is found once, without its source, with its
identifier and its value; of a number that is taken all are different paths that
were asked for (`Answers`). It is so for paths of up to four edges, whose nodes
fit in an identifier, and there are no others; but the search panics if it has no
room for as many nodes as are asked for (`queries_answered_iff`). -/
namespace Hopr.Graph.PathQueries
open StableDiGraph BiHashMap InnerGraph Graph.Representation SimplePaths PathKeys Loopback

/-! ### What is asked for -/

section Spec
variable {G M W C : Type} [StableDiGraph G OffchainPublicKey W]

/-- Edges of the graph, one after the other. -/
def Along (s : InnerGraph G M) : NodeIndex → List (NodeIndex × W) → Prop
  | _, [] => True
  | a, step :: rest => (∃ e, edge s.graph e = some (a, step)) ∧ Along s step.1 rest

/-- A simple path of a length whose prefixes are all worth the minimum. -/
structure Asked [LT C] (s : InnerGraph G M) (source : NodeIndex) (target : NodeIndex → Prop) (length : Nat)
    (value : ValueFn W C) (steps : List (NodeIndex × W)) : Prop where
  along : Along s source steps
  simple : (source :: steps.map Prod.fst).Nodup
  length_eq : steps.length = length
  target : ∀ v ∈ (steps.map Prod.fst).getLast?, target v
  passes : ∀ min ∈ value.min_value, ∀ k, 0 < k → k ≤ length →
    ¬ folded value.value_fn value.initial_value 0 (steps.take k) < min

variable [BiHashMap M OffchainPublicKey NodeIndex]

/-- A path that was asked for: the nodes that are left of it, its identifier and its value. -/
def Answer [LT C] (s : InnerGraph G M) (source : NodeIndex) (target : NodeIndex → Prop) (length : Nat)
    (value : ValueFn W C) (strip : List OffchainPublicKey → List OffchainPublicKey)
    (x : List OffchainPublicKey × PathId × C) : Prop :=
  ∃ steps keys, Asked s source target length value steps ∧ Keyed s (source :: steps.map Prod.fst) keys ∧
    x.1 = strip keys ∧ Encodes x.2.1 keys ∧ x.2.2 = folded value.value_fn value.initial_value 0 steps

/-- A query gives each of the answers once, and as many of them as are taken. -/
structure Answers {R : Type} (s : InnerGraph G M)
    (query : R → Option Nat → Option (List (List OffchainPublicKey × PathId × C)))
    (length : Nat) (answer : List OffchainPublicKey × PathId × C → Prop) : Prop where
  all : 1 ≤ length → length ≤ 4 → ∀ rng, ∃ results, query rng none = some results ∧
    (results.map Prod.fst).Nodup ∧ ∀ x, x ∈ results ↔ answer x
  taken : 1 ≤ length → length ≤ 4 → ∀ rng rng' take_count results, query rng none = some results →
    ∃ results', query rng' (some take_count) = some results' ∧
      results'.length = min take_count results.length ∧ (results'.map Prod.fst).Nodup ∧
      ∀ x ∈ results', answer x
  none : length = 0 ∨ 4 < length → ∀ rng take_count, query rng take_count = some []
  /-- No removed node appears. -/
  mapped : ∀ rng take_count results, query rng take_count = some results →
    ∀ x ∈ results, ∀ key ∈ x.1, Mapped s key

end Spec

/-! ### What is found -/

section Found
variable {G M W C : Type} {s : InnerGraph G M}

theorem Encodes.unique {slots slots' : PathId} {keys : List OffchainPublicKey} (h : Encodes slots keys)
    (h' : Encodes slots' keys) : slots = slots' := by
  obtain ⟨l, hl⟩ := slots
  obtain ⟨l', hl'⟩ := slots'
  have hsame : l = l' := h.2.trans h'.2.symm
  subst hsame
  rfl

variable [BiHashMap M OffchainPublicKey NodeIndex]

theorem Keyed.length_eq {path : List NodeIndex} {keys : List OffchainPublicKey} (h : Keyed s path keys) :
    path.length = keys.length := List.Forall₂.length_eq h

theorem Keyed.keys_eq {path : List NodeIndex} {keys keys' : List OffchainPublicKey} (h : Keyed s path keys)
    (h' : Keyed s path keys') : keys = keys' := h.filterMap.symm.trans h'.filterMap

/-- Every slot is filled if there are enough. -/
theorem fill_slots_some {path : List NodeIndex} {keys : List OffchainPublicKey} (h : Keyed s path keys)
    (n : Nat) (slots : PathId) (hroom : n + keys.length ≤ 5) :
    ∃ slots', (path.zipIdx n).foldlM s.fill_slot slots = some slots' := by
  induction h generalizing n slots with
  | nil => exact ⟨slots, rfl⟩
  | @cons i key path keys hkey _ ih =>
    rw [List.length_cons] at hroom
    rw [List.zipIdx_cons, List.foldlM_cons]
    have hfill : s.fill_slot slots (i, n) = some (slots.set n (path_id.encode key)) := by
      unfold fill_slot
      rw [if_neg (by show ¬ 5 ≤ n; omega)]
      show (get_by_right s.indices i).bind _ = _
      rw [hkey]
      rfl
    rw [hfill]
    exact ih (n + 1) _ (by omega)

/-- A path of so many edges is found, if there are slots for its nodes. -/
theorem found_some {path : List NodeIndex} {keys : List OffchainPublicKey} (h : Keyed s path keys)
    {length : UInt64} (hlength : path.length = length.toNat + 1) (hshort : length.toNat ≤ 4) (cost : C) :
    ∃ slots, s.found length (path, cost) = some (keys.tail, slots, cost) ∧ Encodes slots keys := by
  have hcount := Keyed.length_eq h
  obtain ⟨slots, hfill⟩ := fill_slots_some h 0 PathId.zeros (by omega)
  obtain ⟨keys', hkeys', hencodes⟩ := fill_slots encodes_zeros hfill
  rw [List.nil_append, Keyed.keys_eq hkeys' h] at hencodes
  refine ⟨slots, ?_, hencodes⟩
  have htail : keys.tail.length = length.toNat := by
    rw [List.length_tail]
    omega
  unfold InnerGraph.found
  show (path.zipIdx.foldlM s.fill_slot PathId.zeros).bind _ = _
  rw [hfill, Option.bind_some, h.tail.filterMap, if_pos htail]
  rfl

/-- A path of more edges is not. -/
theorem found_none {length : UInt64} (hlong : 4 < length.toNat) (item : List NodeIndex × C) :
    s.found length item = none := by
  cases hfound : s.found length item with
  | none => rfl
  | some x =>
    obtain ⟨keys, _, hencodes, htail, hlength⟩ := found_spec hfound
    have hshort := hencodes.1
    rw [htail, List.length_tail] at hlength
    omega

variable [StableDiGraph G OffchainPublicKey W]

theorem along_iff [LawfulStableDiGraph G] (h : Represented s) {source : NodeIndex} {steps : List (NodeIndex × W)} :
    Walk (digraph h) source steps ↔ Along s source steps := by
  induction steps generalizing source with
  | nil => exact Iff.rfl
  | cons step rest ih => exact and_congr mem_searched ih

/-- What the search is for is what was asked for. -/
theorem wanted_iff_asked [LawfulStableDiGraph G] [LT C] (h : Represented s) {source : NodeIndex}
    {destinations : Finset NodeIndex} {length : UInt64} (hpos : length ≠ 0) {value : ValueFn W C}
    {steps : List (NodeIndex × W)} :
    Wanted (digraph h) (paths_query source destinations length value) steps ↔
      Asked s source (· ∈ destinations) length.toNat value steps := by
  have hone := toNat_sub_one hpos
  constructor
  · intro hw
    have hmin : (length - 1).toNat ≤ steps.length - 1 := hw.min
    have hmax : steps.length - 1 ≤ (length - 1).toNat := hw.max _ rfl
    have hcount := List.length_pos_of_ne_nil hw.nonempty
    have hlength : steps.length = length.toNat := by omega
    refine ⟨(along_iff h).mp hw.walk, hw.simple, hlength, hw.target, ?_⟩
    rw [← hlength]
    exact hw.cost
  · intro ha
    have hlength := ha.length_eq
    have hnil : steps ≠ [] := by
      rintro rfl
      rw [← hlength] at hone
      cases hone
    refine ⟨(along_iff h).mpr ha.along, ha.simple, hnil, ha.target, ?_, ?_, fun _ hexcl => (nomatch hexcl), ?_⟩
    · show (length - 1).toNat ≤ steps.length - 1
      omega
    · intro l hl
      cases hl
      omega
    · rw [hlength]
      exact ha.passes

variable [LawfulBiHashMap M]

theorem Keyed.path_eq {path path' : List NodeIndex} {keys : List OffchainPublicKey} (h : Keyed s path keys)
    (h' : Keyed s path' keys) : path = path' := by
  induction h generalizing path' with
  | nil =>
    cases h'
    rfl
  | cons hkey _ ih =>
    cases h' with
    | cons hkey' hrest' =>
      rw [← LawfulBiHashMap.left_iff_right] at hkey hkey'
      rw [Option.some.inj (hkey.symm.trans hkey'), ih hrest']

/-- The nodes along a path are those of keys. -/
theorem keyed_of_along (h : Represented s) {source : NodeIndex} {steps : List (NodeIndex × W)} (hne : steps ≠ [])
    (halong : Along s source steps) : ∃ keys, Keyed s (source :: steps.map Prod.fst) keys := by
  induction steps generalizing source with
  | nil => exact absurd rfl hne
  | cons step rest ih =>
    obtain ⟨⟨e, he⟩, hrest⟩ := halong
    obtain ⟨⟨key, hkey⟩, key', hkey'⟩ := h.ends he
    rw [LawfulBiHashMap.left_iff_right] at hkey hkey'
    cases rest with
    | nil => exact ⟨[key, key'], .cons hkey (.cons hkey' .nil)⟩
    | cons step' rest =>
      obtain ⟨keys, hkeys⟩ := ih (List.cons_ne_nil _ _) hrest
      exact ⟨key :: keys, .cons hkey hkeys⟩

variable {source : NodeIndex} {destinations : Finset NodeIndex} {length : UInt64} {value : ValueFn W C}
  {items : List (List NodeIndex × C)}

/-- What is found of a path that the search was for. -/
theorem found_answer [LT C] (h : Represented s) (hpos : length ≠ 0) (hshort : length.toNat ≤ 4)
    {steps : List (NodeIndex × W)} (ha : Asked s source (· ∈ destinations) length.toNat value steps) :
    ∃ keys slots, Keyed s (source :: steps.map Prod.fst) keys ∧ Encodes slots keys ∧
      s.found length (source :: steps.map Prod.fst, folded value.value_fn value.initial_value 0 steps) =
        some (keys.tail, slots, folded value.value_fn value.initial_value 0 steps) := by
  have hlength := ha.length_eq
  have hne : steps ≠ [] := by
    rintro rfl
    exact hpos (UInt64.toNat_inj.mp hlength.symm)
  obtain ⟨keys, hkeys⟩ := keyed_of_along h hne ha.along
  have hcount : (source :: steps.map Prod.fst).length = length.toNat + 1 := by
    rw [List.length_cons, List.length_map, hlength]
  obtain ⟨slots, hfound, hencodes⟩ := found_some hkeys hcount hshort
    (folded value.value_fn value.initial_value 0 steps)
  exact ⟨keys, slots, hkeys, hencodes, hfound⟩

variable [LawfulStableDiGraph G] [LT C]

/-- Each path is found once. -/
theorem found_exactly (h : Represented s) (hpos : length ≠ 0) (hshort : length.toNat ≤ 4)
    (hexact : Exact (digraph h) (paths_query source destinations length value) items) :
    ((items.filterMap (s.found length)).map Prod.fst).Nodup ∧
      ∀ x, x ∈ items.filterMap (s.found length) ↔
        Answer s source (· ∈ destinations) length.toNat value List.tail x := by
  have hitem : ∀ path cost, (path, cost) ∈ items ↔
      ∃ steps, Asked s source (· ∈ destinations) length.toNat value steps ∧
        path = source :: steps.map Prod.fst ∧ cost = folded value.value_fn value.initial_value 0 steps := by
    intro path cost
    rw [hexact.mem]
    simp only [wanted_iff_asked h hpos]
    rfl
  constructor
  · rw [List.Nodup, List.pairwise_map, List.pairwise_filterMap]
    have honce := hexact.once
    rw [List.Nodup, List.pairwise_map] at honce
    apply honce.imp_of_mem
    intro ⟨path, cost⟩ ⟨path', cost'⟩ hmem hmem' hne x hx x' hx' heq
    obtain ⟨steps, ha, rfl, rfl⟩ := (hitem path cost).mp hmem
    obtain ⟨steps', ha', rfl, rfl⟩ := (hitem path' cost').mp hmem'
    obtain ⟨keys, slots, hkeys, _, hfound⟩ := found_answer h hpos hshort ha
    obtain ⟨keys', slots', hkeys', _, hfound'⟩ := found_answer h hpos hshort ha'
    cases hfound.symm.trans hx
    cases hfound'.symm.trans hx'
    cases hkeys with
    | cons hkey hrest =>
      cases hkeys' with
      | cons hkey' hrest' =>
        dsimp only [List.tail_cons] at heq
        subst heq
        exact hne (congrArg (source :: ·) (Keyed.path_eq hrest hrest'))
  · intro x
    rw [List.mem_filterMap]
    constructor
    · intro ⟨⟨path, cost⟩, hmem, hx⟩
      obtain ⟨steps, ha, rfl, rfl⟩ := (hitem path cost).mp hmem
      obtain ⟨keys, slots, hkeys, hencodes, hfound⟩ := found_answer h hpos hshort ha
      cases hfound.symm.trans hx
      exact ⟨steps, keys, ha, hkeys, rfl, hencodes, rfl⟩
    · intro ⟨steps, keys, ha, hkeys, hnodes, hencodes, hvalue⟩
      refine ⟨_, (hitem _ _).mpr ⟨steps, ha, rfl, rfl⟩, ?_⟩
      obtain ⟨keys', slots, hkeys', hencodes', hfound⟩ := found_answer h hpos hshort ha
      rw [Keyed.keys_eq hkeys' hkeys] at hencodes' hfound
      rw [hfound, ← Encodes.unique hencodes hencodes', ← hnodes, ← hvalue]

end Found

/-! ### Queries -/

section Queries
variable {G M W C R : Type} [BiHashMap M OffchainPublicKey NodeIndex] {s : InnerGraph G M}
  {query : R → Option Nat → Option (List (List OffchainPublicKey × PathId × C))} {length : Nat}
  {answer : List OffchainPublicKey × PathId × C → Prop}

/-- A query that takes the first of what it would give. -/
theorem answers_of_take (htake : ∀ rng k, query rng (some k) = (query rng none).map (List.take k))
    (hall : 1 ≤ length → length ≤ 4 → ∀ rng, ∃ results, query rng none = some results ∧
      (results.map Prod.fst).Nodup ∧ ∀ x, x ∈ results ↔ answer x)
    (hnone : length = 0 ∨ 4 < length → ∀ rng, query rng none = some [])
    (hmapped : ∀ rng results, query rng none = some results → ∀ x ∈ results, ∀ key ∈ x.1, Mapped s key) :
    Answers s query length answer := by
  constructor
  case all => exact hall
  case taken =>
    intro hpos hshort rng rng' take_count results hresults
    obtain ⟨all, hquery, honce, hmem⟩ := hall hpos hshort rng
    obtain ⟨all', hquery', honce', hmem'⟩ := hall hpos hshort rng'
    cases hresults.symm.trans hquery
    have hperm : results.Perm all' := by
      apply (List.perm_ext_iff_of_nodup (List.Nodup.of_map _ honce) (List.Nodup.of_map _ honce')).mpr
      exact fun x => (hmem x).trans (hmem' x).symm
    refine ⟨all'.take take_count, ?_, ?_, ?_, ?_⟩
    · rw [htake, hquery', Option.map_some]
    · rw [List.length_take, hperm.length_eq]
    · rw [List.map_take]
      exact honce'.sublist (List.take_sublist _ _)
    · exact fun x hx => (hmem' x).mp (List.mem_of_mem_take hx)
  case none =>
    intro hlength rng take_count
    cases take_count with
    | none => exact hnone hlength rng
    | some take_count => rw [htake, hnone hlength, Option.map_some, List.take_nil]
  case mapped =>
    intro rng take_count results hresults x hx
    cases take_count with
    | none => exact hmapped rng results hresults x hx
    | some take_count =>
      rw [htake, Option.map_eq_some_iff] at hresults
      obtain ⟨all, hquery, rfl⟩ := hresults
      exact hmapped rng all hquery x (List.mem_of_mem_take hx)

/-- A query of which nothing is the answer. -/
theorem answers_nothing (hnothing : ∀ rng take_count, query rng take_count = some []) (hanswer : ∀ x, ¬ answer x) :
    Answers s query length answer := by
  apply answers_of_take
  · intro rng k
    rw [hnothing, hnothing, Option.map_some, List.take_nil]
  · intro _ _ rng
    exact ⟨[], hnothing rng none, .nil, fun x => ⟨fun hx => (nomatch hx), fun hx => absurd hx (hanswer x)⟩⟩
  · exact fun _ rng => hnothing rng none
  · intro rng results hresults x hx
    cases (hnothing rng none).symm.trans hresults
    cases hx

/-- Of each result of a query something is made that still tells it from the others. -/
theorem Answers.map (h : Answers s query length answer)
    {f : List OffchainPublicKey × PathId × C → List OffchainPublicKey × PathId × C}
    (hapart : 1 ≤ length → ∀ x y, answer x → answer y → (f x).1 = (f y).1 → x.1 = y.1)
    (hkept : ∀ x, (f x).1 ⊆ x.1) :
    Answers s (fun rng k => (query rng k).map (List.map f)) length fun y => ∃ x, answer x ∧ f x = y := by
  have honce : 1 ≤ length → ∀ results : List (List OffchainPublicKey × PathId × C),
      (results.map Prod.fst).Nodup → (∀ x ∈ results, answer x) → ((results.map f).map Prod.fst).Nodup := by
    intro hpos results hnodup hanswer
    rw [List.Nodup, List.pairwise_map] at hnodup
    rw [List.Nodup, List.map_map, List.pairwise_map]
    apply hnodup.imp_of_mem
    intro x y hx hy hne heq
    exact hne (hapart hpos x y (hanswer x hx) (hanswer y hy) heq)
  constructor
  case all =>
    intro hpos hshort rng
    obtain ⟨results, hquery, hnodup, hmem⟩ := h.all hpos hshort rng
    refine ⟨results.map f, by rw [hquery]; rfl, honce hpos results hnodup fun x => (hmem x).mp, fun y => ?_⟩
    rw [List.mem_map]
    exact exists_congr fun x => and_congr_left fun _ => hmem x
  case taken =>
    intro hpos hshort rng rng' take_count results hresults
    obtain ⟨all, hquery, rfl⟩ := Option.map_eq_some_iff.mp hresults
    obtain ⟨results', hquery', hlength, hnodup, hmem⟩ := h.taken hpos hshort rng rng' take_count all hquery
    refine ⟨results'.map f, by rw [hquery']; rfl, ?_, honce hpos results' hnodup hmem, fun y hy => ?_⟩
    · rw [List.length_map, List.length_map, hlength]
    · obtain ⟨x, hx, rfl⟩ := List.mem_map.mp hy
      exact ⟨x, hmem x hx, rfl⟩
  case none =>
    intro hlength rng take_count
    rw [h.none hlength, Option.map_some, List.map_nil]
  case mapped =>
    intro rng take_count results hresults y hy key hkey
    obtain ⟨all, hquery, rfl⟩ := Option.map_eq_some_iff.mp hresults
    obtain ⟨x, hx, rfl⟩ := List.mem_map.mp hy
    exact h.mapped rng take_count all hquery x hx key (hkept x hkey)

theorem Answers.congr {answer' : List OffchainPublicKey × PathId × C → Prop} (h : Answers s query length answer)
    (hiff : ∀ x, answer x ↔ answer' x) : Answers s query length answer' := by
  have hsame : answer = answer' := funext fun x => propext (hiff x)
  exact hsame ▸ h

/-- There are results only of lengths that fit in an identifier. -/
theorem Answers.of_mem (h : Answers s query length answer) {rng : R} {take_count : Option Nat}
    {results : List (List OffchainPublicKey × PathId × C)} (hresults : query rng take_count = some results)
    {x : List OffchainPublicKey × PathId × C} (hx : x ∈ results) : 1 ≤ length ∧ length ≤ 4 ∧ answer x := by
  by_cases hfits : 1 ≤ length ∧ length ≤ 4
  · obtain ⟨hpos, hshort⟩ := hfits
    refine ⟨hpos, hshort, ?_⟩
    obtain ⟨all, hall, _, hmem⟩ := h.all hpos hshort rng
    cases take_count with
    | none =>
      cases hresults.symm.trans hall
      exact (hmem x).mp hx
    | some take_count =>
      obtain ⟨taken, htaken, _, _, hanswer⟩ := h.taken hpos hshort rng rng take_count all hall
      cases hresults.symm.trans htaken
      exact hanswer x hx
  · cases hresults.symm.trans (h.none (by omega) rng take_count)
    cases hx

variable [StableDiGraph G OffchainPublicKey W] [LT C]

/-- The last key of a path is that of its end. -/
theorem last_key [LawfulBiHashMap M] {source dest : NodeIndex} {key : OffchainPublicKey} {length : Nat}
    {value : ValueFn W C} {steps : List (NodeIndex × W)} {keys : List OffchainPublicKey} (hpos : 1 ≤ length)
    (ha : Asked s source (· = dest) length value steps) (hkeys : Keyed s (source :: steps.map Prod.fst) keys)
    (hkey : get_by_left s.indices key = some dest) : keys.tail.dropLast ++ [key] = keys.tail := by
  have hcount := Keyed.length_eq hkeys
  rw [List.length_cons, List.length_map, ha.length_eq] at hcount
  have hne : keys.tail ≠ [] := by
    intro hnil
    have hzero := congrArg List.length hnil
    rw [List.length_tail, List.length_nil] at hzero
    omega
  have hlast := List.getLast?_eq_some_getLast hne
  obtain ⟨i, hi, hlastkey⟩ := hkeys.tail.of_last hlast
  rw [ha.target i hi, ← LawfulBiHashMap.left_iff_right] at hlastkey
  rw [← left_injective hlastkey hkey]
  exact List.dropLast_append_getLast hne

variable [DecidableLT C]

/-- Without room the search panics. -/
theorem find_paths_panics {sh : Shuffle R (NodeIndex × W)} {rng : R} {source : NodeIndex}
    {destinations : Finset NodeIndex} {length : UInt64} {take_count : Option Nat} {value : ValueFn W C}
    (hpos : length ≠ 0) (hroom : ¬ HasRoom G length value) :
    s.find_paths sh rng source destinations length take_count value = none := by
  unfold InnerGraph.find_paths
  have hsearch : all_simple_paths_multi s.searched (paths_query source destinations length value) sh rng = none :=
    if_neg fun hhas => hroom ((has_room_iff source destinations value s).mp hhas)
  rw [if_neg hpos, hsearch]
  rfl

variable [LawfulBiHashMap M] [LawfulStableDiGraph G]

theorem find_paths_answers (h : Represented s) (sh : Shuffle R (NodeIndex × W)) (source : NodeIndex)
    (destinations : Finset NodeIndex) {length : UInt64} {value : ValueFn W C}
    (hroom : length = 0 ∨ HasRoom G length value) :
    Answers s (fun rng k => s.find_paths sh rng source destinations length k value) length.toNat
      (Answer s source (· ∈ destinations) length.toNat value List.tail) := by
  have hrun : length ≠ 0 → ∀ rng items,
      all_simple_paths_multi s.searched (paths_query source destinations length value) sh rng = some items →
      s.find_paths sh rng source destinations length none value = some (items.filterMap (s.found length)) := by
    intro hpos rng items hitems
    unfold InnerGraph.find_paths
    rw [if_neg hpos, hitems]
    rfl
  apply answers_of_take
  · intro rng k
    unfold InnerGraph.find_paths
    split
    · rw [Option.map_some, List.take_nil]
    · cases all_simple_paths_multi s.searched (paths_query source destinations length value) sh rng with
      | none => rfl
      | some items => rfl
  · intro hpos hshort rng
    have hne : length ≠ 0 := by
      rintro rfl
      cases hpos
    obtain ⟨items, hitems, hexact⟩ :=
      paths_exact sh rng source destinations value h hne (by omega) (hroom.resolve_left hne)
    exact ⟨_, hrun hne rng items hitems, found_exactly h hne hshort hexact⟩
  · intro hlength rng
    by_cases hzero : length = 0
    · show s.find_paths sh rng source destinations length none value = some []
      unfold InnerGraph.find_paths
      rw [if_pos hzero]
    · have hlong : 4 < length.toNat := hlength.resolve_left fun heq => hzero (UInt64.toNat_inj.mp heq)
      obtain ⟨items, hitems⟩ := search_ends (digraph h) (paths_query source destinations length value) sh rng
        ((has_room_iff source destinations value s).mpr (hroom.resolve_left hzero))
      have hnothing : items.filterMap (s.found length) = [] :=
        List.filterMap_eq_nil_iff.mpr fun item _ => found_none hlong item
      rw [← hnothing]
      exact hrun hzero rng items hitems
  · intro rng results hresults x hx key hkey
    obtain ⟨steps, keys, _, hkeyed, _, htail, _⟩ := find_paths_spec h hresults hx
    rw [htail] at hkey
    obtain ⟨i, _, hi⟩ := hkeyed.of_mem (List.mem_of_mem_tail hkey)
    exact ⟨i, LawfulBiHashMap.left_iff_right.mpr hi⟩

theorem simple_paths_answers (h : Represented s) (sh : Shuffle R (NodeIndex × W))
    (source destination : OffchainPublicKey) {length : UInt64} {value : ValueFn W C}
    (hroom : length = 0 ∨ HasRoom G length value) :
    Answers s (fun rng k => s.simple_paths sh rng source destination length k value) length.toNat fun x =>
      ∃ a b, get_by_left s.indices source = some a ∧ get_by_left s.indices destination = some b ∧
        Answer s a (· = b) length.toNat value (fun keys => keys.tail.dropLast) x := by
  cases ha : get_by_left s.indices source with
  | none =>
    apply answers_nothing
    · intro rng k
      simp only [InnerGraph.simple_paths, ha, ite_self]
    · intro x ⟨a, _, hnone, _⟩
      cases hnone
  | some a =>
    cases hb : get_by_left s.indices destination with
    | none =>
      apply answers_nothing
      · intro rng k
        simp only [InnerGraph.simple_paths, ha, hb, ite_self]
      · intro x ⟨_, b, _, hnone, _⟩
        cases hnone
    | some b =>
      have hquery : (fun rng k => s.simple_paths sh rng source destination length k value) = fun rng k =>
          (s.find_paths sh rng a {b} length k value).map (List.map fun x => (x.1.dropLast, x.2)) := by
        funext rng k
        by_cases hzero : length = 0
        · simp only [InnerGraph.simple_paths, InnerGraph.find_paths, if_pos hzero, Option.map_some, List.map_nil]
        · simp only [InnerGraph.simple_paths, ha, hb, if_neg hzero]
          cases s.find_paths sh rng a {b} length k value with
          | none => rfl
          | some results => rfl
      have htarget : ∀ x, Answer s a (· ∈ ({b} : Finset NodeIndex)) length.toNat value List.tail x ↔
          Answer s a (· = b) length.toNat value List.tail x := by
        intro x
        simp only [Finset.mem_singleton]
      have hanswers := (find_paths_answers h sh a {b} hroom).congr htarget
      have hmap := hanswers.map (f := fun x => (x.1.dropLast, x.2)) ?_ fun x => List.dropLast_subset x.1
      · rw [hquery]
        apply hmap.congr
        intro x
        constructor
        · intro ⟨y, ⟨steps, keys, hasked, hkeys, hnodes, hencodes, hvalue⟩, hx⟩
          subst hx
          exact ⟨a, b, rfl, rfl, steps, keys, hasked, hkeys, congrArg List.dropLast hnodes, hencodes, hvalue⟩
        · intro ⟨_, _, rfl, rfl, steps, keys, hasked, hkeys, hnodes, hencodes, hvalue⟩
          exact ⟨(keys.tail, x.2), ⟨steps, keys, hasked, hkeys, rfl, hencodes, hvalue⟩, Prod.ext hnodes.symm rfl⟩
      · -- The destination is the same, so the paths differ before it.
        intro hpos x y hx hy heq
        obtain ⟨steps, keys, hasked, hkeys, hnodes, _⟩ := hx
        obtain ⟨steps', keys', hasked', hkeys', hnodes', _⟩ := hy
        have hlast := last_key hpos hasked hkeys hb
        have hlast' := last_key hpos hasked' hkeys' hb
        rw [← hnodes] at hlast
        rw [← hnodes'] at hlast'
        rw [← hlast, ← hlast']
        exact congrArg (· ++ [destination]) heq

/-- The keys of a path are the source, the nodes between and the destination: joined nodes, each once. -/
theorem simple_paths_keys (h : Represented s) {sh : Shuffle R (NodeIndex × W)} {rng : R}
    {source destination : OffchainPublicKey} {length : UInt64} {take_count : Option Nat} {value : ValueFn W C}
    {results : List (List OffchainPublicKey × PathId × C)}
    (hresults : s.simple_paths sh rng source destination length take_count value = some results)
    {nodes : List OffchainPublicKey} {slots : PathId} {cost : C} (hx : (nodes, slots, cost) ∈ results) :
    Encodes slots (source :: nodes ++ [destination]) ∧ (∀ k ∈ source :: nodes ++ [destination], Mapped s k) ∧
      (source :: nodes ++ [destination]).Nodup ∧ (source :: nodes ++ [destination]).IsChain (Joined s) ∧
      nodes.length + 1 = length.toNat := by
  have hroom : length = 0 ∨ HasRoom G length value := by
    by_contra hnot
    obtain ⟨hpos, hnone⟩ := not_or.mp hnot
    unfold InnerGraph.simple_paths at hresults
    rw [if_neg hpos] at hresults
    split at hresults
    · cases hresults
      cases hx
    · split at hresults
      · cases hresults
        cases hx
      · rw [find_paths_panics hpos hnone] at hresults
        cases hresults
  obtain ⟨hpos, _, a, b, ha, hb, steps, keys, hasked, hkeyed, hnodes, hencodes, _⟩ :=
    (simple_paths_answers h sh source destination hroom).of_mem hresults hx
  dsimp only at hnodes hencodes
  have hlast := last_key hpos hasked hkeyed hb
  have hcount := Keyed.length_eq hkeyed
  have hmapped : ∀ k ∈ keys, Mapped s k := by
    intro k hk
    obtain ⟨i, _, hi⟩ := hkeyed.of_mem hk
    exact ⟨i, LawfulBiHashMap.left_iff_right.mpr hi⟩
  have hnodup := hkeyed.nodup hasked.simple
  have hchain := joined_of_walk h ((along_iff h).mpr hasked.along) hkeyed
  obtain rfl : keys = source :: nodes ++ [destination] := by
    cases hkeyed with
    | @cons _ key _ rest hkey _ =>
      rw [← LawfulBiHashMap.left_iff_right] at hkey
      rw [← hnodes, List.tail_cons] at hlast
      rw [List.cons_append, hlast, left_injective hkey ha]
  rw [List.length_cons, List.length_map, hasked.length_eq, List.length_append, List.length_cons,
    List.length_singleton] at hcount
  exact ⟨hencodes, hmapped, hnodup, hchain, by omega⟩

/-- Any other node of the graph is a target. -/
theorem simple_paths_from_answers (h : Represented s) (sh : Shuffle R (NodeIndex × W))
    (source : OffchainPublicKey) {length : UInt64} {value : ValueFn W C}
    (hroom : length = 0 ∨ HasRoom G length value) :
    Answers s (fun rng k => s.simple_paths_from sh rng source length k value) length.toNat fun x =>
      ∃ a, get_by_left s.indices source = some a ∧ Answer s a (· ≠ a) length.toNat value List.tail x := by
  cases ha : get_by_left s.indices source with
  | none =>
    apply answers_nothing
    · intro rng k
      simp only [InnerGraph.simple_paths_from, ha, ite_self]
    · intro x ⟨a, hnone, _⟩
      cases hnone
  | some a =>
    have hquery : (fun rng k => s.simple_paths_from sh rng source length k value) = fun rng k =>
        s.find_paths sh rng a ((node_indices s.graph).filter (· ≠ a)).toFinset length k value := by
      funext rng k
      by_cases hzero : length = 0
      · simp only [InnerGraph.simple_paths_from, InnerGraph.find_paths, if_pos hzero]
      · simp only [InnerGraph.simple_paths_from, ha, if_neg hzero]
    rw [hquery]
    apply (find_paths_answers h sh a _ hroom).congr
    intro x
    constructor
    · intro ⟨steps, keys, hasked, hrest⟩
      refine ⟨a, rfl, steps, keys, {hasked with target := fun v hv => ?_}, hrest⟩
      have hmem := List.mem_toFinset.mp (hasked.target v hv)
      exact of_decide_eq_true (List.mem_filter.mp hmem).2
    · intro ⟨_, rfl, steps, keys, hasked, hrest⟩
      refine ⟨steps, keys, {hasked with target := fun v hv => ?_}, hrest⟩
      have hnode : v ∈ node_indices s.graph := by
        have hwalk := (along_iff h).mpr hasked.along
        exact hwalk.mem_nodes v (List.mem_of_getLast? hv)
      exact List.mem_toFinset.mpr (List.mem_filter.mpr ⟨hnode, decide_eq_true (hasked.target v hv)⟩)

/-- What the three queries are to give: the paths of a length exactly, each once, and of a number that is
taken so many of them; none of more edges than an identifier has room for. -/
structure Answered (s : InnerGraph G M) (sh : Shuffle R (NodeIndex × W)) (length : UInt64) (value : ValueFn W C) :
    Prop where
  find_paths : ∀ source destinations,
    Answers s (fun rng k => s.find_paths sh rng source destinations length k value) length.toNat
      (Answer s source (· ∈ destinations) length.toNat value List.tail)
  simple_paths : ∀ source destination,
    Answers s (fun rng k => s.simple_paths sh rng source destination length k value) length.toNat fun x =>
      ∃ a b, get_by_left s.indices source = some a ∧ get_by_left s.indices destination = some b ∧
        Answer s a (· = b) length.toNat value (fun keys => keys.tail.dropLast) x
  simple_paths_from : ∀ source,
    Answers s (fun rng k => s.simple_paths_from sh rng source length k value) length.toNat fun x =>
      ∃ a, get_by_left s.indices source = some a ∧ Answer s a (· ≠ a) length.toNat value List.tail x

/-- **The queries give what they are to give exactly if no path is asked for or its nodes have room in the
search.** Otherwise it panics, also where there is nothing to be found. -/
theorem queries_answered_iff (h : Represented s) (sh : Shuffle R (NodeIndex × W)) (rng : R) (length : UInt64)
    (value : ValueFn W C) : Answered s sh length value ↔ length = 0 ∨ HasRoom G length value := by
  constructor
  · intro hanswered
    by_contra hnot
    obtain ⟨hpos, hroom⟩ := not_or.mp hnot
    have hanswers := hanswered.find_paths ⟨0⟩ ∅
    have hpanics : ∀ take_count, s.find_paths sh rng ⟨0⟩ ∅ length take_count value = none :=
      fun _ => find_paths_panics hpos hroom
    by_cases hshort : length.toNat ≤ 4
    · have hone : 1 ≤ length.toNat := Nat.one_le_iff_ne_zero.mpr fun hzero => hpos (UInt64.toNat_inj.mp hzero)
      obtain ⟨_, hresults, _⟩ := hanswers.all hone hshort rng
      cases (hpanics none).symm.trans hresults
    · have hnothing := hanswers.none (.inr (Nat.lt_of_not_le hshort)) rng none
      cases (hpanics none).symm.trans hnothing
  · intro hroom
    exact ⟨fun source destinations => find_paths_answers h sh source destinations hroom,
      fun source destination => simple_paths_answers h sh source destination hroom,
      fun source => simple_paths_from_answers h sh source hroom⟩

end Queries

theorem represented_triangle : Represented triangle.inner := represented_calls (represented_new _) _

/-- Of the two paths from a node of a triangle one has two edges. -/
theorem queries_answered_iff_triangle : ∃ results,
    triangle.inner.simple_paths_from (Shuffle.keep _) () (.of 1) 2 none (ValueFn.edges _) = some results ∧
    results.map Prod.fst = [[.of 2, .of 3]] ∧ ∀ x ∈ results, ∃ a,
      get_by_left triangle.inner.indices (.of 1) = some a ∧
        Answer triangle.inner a (· ≠ a) 2 (ValueFn.edges _) List.tail x := by
  have hnodes : (triangle.inner.simple_paths_from (Shuffle.keep _) () (.of 1) 2 none (ValueFn.edges _)).map
      (List.map Prod.fst) = some [[.of 2, .of 3]] := by
    decide +kernel
  have hanswered := (queries_answered_iff represented_triangle (Shuffle.keep _) () 2 (ValueFn.edges _)).mpr
    (.inr (HasRoom.of_short _ (by decide)))
  obtain ⟨results, hresults, _, hmem⟩ :=
    (hanswered.simple_paths_from (.of 1)).all (by decide) (by decide) ()
  rw [hresults] at hnodes
  exact ⟨results, hresults, Option.some.inj hnodes, fun x hx => (hmem x).mp hx⟩

/-- Asked for paths of 2^62 edges the search panics. -/
theorem long_query_panics : (∀ rng source destinations take_count,
    triangle.inner.find_paths (Shuffle.keep _) rng source destinations 4611686018427387904 take_count
      (ValueFn.edges _) = none) ∧
    ¬ Answered triangle.inner (Shuffle.keep _) 4611686018427387904 (ValueFn.edges _) := by
  have hpanics : ∀ rng source destinations take_count, triangle.inner.find_paths (Shuffle.keep _) rng source
      destinations 4611686018427387904 take_count (ValueFn.edges _) = none :=
    fun _ _ _ _ => find_paths_panics (by decide) (by decide)
  refine ⟨hpanics, ?_⟩
  intro hanswered
  have hnothing := (hanswered.find_paths ⟨0⟩ {⟨1⟩}).none (.inr (by decide)) () none
  rw [hpanics] at hnothing
  cases hnothing

end Hopr.Graph.PathQueries
