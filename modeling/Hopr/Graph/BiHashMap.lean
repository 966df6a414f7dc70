import Mathlib.Data.List.Dedup
import Mathlib.Logic.Function.Basic

/-! The map between keys and indices.

`BiHashMap` is what is used of the two-way map of the package, and
`LawfulBiHashMap` its documented behaviour: no left and no right value is in two
pairs, and a pair that is inserted takes the place of those it overlaps with. The left values
of a map may be listed (`LeftValues`).

`PairMap` is a lawful one, kept as a function each way, and `Listed` keeps the
left values of another beside it. -/
namespace Hopr.Graph

class BiHashMap (M : Type) (K V : outParam Type) where
  empty : M
  get_by_left : M → K → Option V
  get_by_right : M → V → Option K
  insert : K → V → M → M
  remove_by_left : K → M → M

open BiHashMap

class LawfulBiHashMap (M : Type) {K V : outParam Type} [DecidableEq K] [DecidableEq V]
    [BiHashMap M K V] : Prop where
  left_empty : ∀ k, get_by_left (empty : M) k = none
  /-- Both ways lead through the same pairs. -/
  left_iff_right : ∀ {m : M} {k v}, get_by_left m k = some v ↔ get_by_right m v = some k
  left_insert : ∀ (k v) (m : M) (k'), get_by_left (insert k v m) k' =
    if k' = k then some v else if get_by_left m k' = some v then none else get_by_left m k'
  left_remove_by_left : ∀ (k) (m : M) (k'),
    get_by_left (remove_by_left k m) k' = if k' = k then none else get_by_left m k'

class LeftValues (M : Type) {K V : outParam Type} [BiHashMap M K V] where
  left_values : M → List K
  nodup_left_values : ∀ m : M, (left_values m).Nodup
  /-- A left value is listed if it is in a pair. -/
  mem_left_values : ∀ {m : M} {k}, k ∈ left_values m ↔ ∃ v, get_by_left m k = some v

namespace BiHashMap
variable {M K V : Type} [DecidableEq K] [DecidableEq V] [BiHashMap M K V] [LawfulBiHashMap M]

theorem left_injective {m : M} {k k' : K} {v : V} (h : get_by_left m k = some v)
    (h' : get_by_left m k' = some v) : k = k' := by
  rw [LawfulBiHashMap.left_iff_right] at h h'
  exact Option.some.inj (h.symm.trans h')

/-- A pair with a new right value takes no other pair's place. -/
theorem left_insert_new {m : M} {v : V} (hv : ∀ k, get_by_left m k ≠ some v) (k k' : K) :
    get_by_left (insert k v m) k' = if k' = k then some v else get_by_left m k' := by
  rw [LawfulBiHashMap.left_insert, if_neg (hv k')]

end BiHashMap

/-- A two-way map kept as a function each way. -/
structure PairMap (K V : Type) where
  left : K → Option V
  right : V → Option K
  left_iff_right : ∀ {k v}, left k = some v ↔ right v = some k

namespace PairMap
variable {K V : Type} [DecidableEq K] [DecidableEq V]

def insert (k : K) (v : V) (m : PairMap K V) : PairMap K V where
  left k' := if k' = k then some v else if m.left k' = some v then none else m.left k'
  right v' := if v' = v then some k else if m.right v' = some k then none else m.right v'
  left_iff_right := by
    intro k' v'
    have hk := m.left_iff_right (k := k') (v := v')
    have hv := m.left_iff_right (k := k') (v := v)
    have hl := m.left_iff_right (k := k) (v := v')
    grind

def remove_by_left (k : K) (m : PairMap K V) : PairMap K V where
  left k' := if k' = k then none else m.left k'
  right v' := if m.right v' = some k then none else m.right v'
  left_iff_right := by
    intro k' v'
    have hk := m.left_iff_right (k := k') (v := v')
    grind

instance pairs : BiHashMap (PairMap K V) K V where
  empty := ⟨fun _ => none, fun _ => none, fun {_ _} => ⟨fun h => (nomatch h), fun h => (nomatch h)⟩⟩
  get_by_left m := m.left
  get_by_right m := m.right
  insert := insert
  remove_by_left := remove_by_left

instance lawful : LawfulBiHashMap (PairMap K V) where
  left_empty _ := rfl
  left_iff_right {m _ _} := m.left_iff_right
  left_insert _ _ _ _ := rfl
  left_remove_by_left _ _ _ := rfl

end PairMap

/-- A two-way map with its left values. -/
structure Listed (M : Type) {K V : Type} [BiHashMap M K V] where
  map : M
  left_values : List K
  nodup : left_values.Nodup
  mem_left_values : ∀ {k}, k ∈ left_values ↔ ∃ v, get_by_left map k = some v

namespace Listed
variable {M K V : Type} [DecidableEq K] [DecidableEq V] [BiHashMap M K V]

/-- A map all of whose left values are among the candidates. -/
def relist (map : M) (candidates : List K) (h : ∀ k v, get_by_left map k = some v → k ∈ candidates) :
    Listed M where
  map := map
  left_values := candidates.dedup.filter fun k => (get_by_left map k).isSome
  nodup := (List.nodup_dedup candidates).filter _
  mem_left_values := by
    intro k
    rw [List.mem_filter, List.mem_dedup, Option.isSome_iff_exists]
    exact ⟨And.right, fun ⟨v, hv⟩ => ⟨h k v hv, v, hv⟩⟩

variable [LawfulBiHashMap M]

instance listed : BiHashMap (Listed M) K V where
  empty := relist empty [] fun k v h => by
    rw [LawfulBiHashMap.left_empty] at h
    cases h
  get_by_left l := get_by_left l.map
  get_by_right l := get_by_right l.map
  insert k v l := relist (insert k v l.map) (k :: l.left_values) fun k' v' h => by
    rw [LawfulBiHashMap.left_insert] at h
    split at h
    · next hk => exact List.mem_cons.mpr (.inl hk)
    · split at h
      · cases h
      · exact List.mem_cons.mpr (.inr (l.mem_left_values.mpr ⟨v', h⟩))
  remove_by_left k l := relist (remove_by_left k l.map) l.left_values fun k' v' h => by
    rw [LawfulBiHashMap.left_remove_by_left] at h
    split at h
    · cases h
    · exact l.mem_left_values.mpr ⟨v', h⟩

instance lawful : LawfulBiHashMap (Listed M) where
  left_empty := LawfulBiHashMap.left_empty (M := M)
  left_iff_right := LawfulBiHashMap.left_iff_right (M := M)
  left_insert k v l := LawfulBiHashMap.left_insert k v l.map
  left_remove_by_left k l := LawfulBiHashMap.left_remove_by_left k l.map

instance left : LeftValues (Listed M) where
  left_values := left_values
  nodup_left_values := nodup
  mem_left_values {l _} := l.mem_left_values

end Listed

end Hopr.Graph
