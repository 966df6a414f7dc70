import Mathlib.Logic.Function.Basic

/-! Caches that load what they miss.

A lookup that misses loads the value, one load for each key at a time: it starts,
reads the backing store, and puts what it read into the cache, whatever is there
by then. Lookups that come in between wait for it. Entries may be evicted at any
time. A key is `Fresh` if neither its entry nor a load that has read holds
anything but what the backing store has: then lookups answer what it has
(`get_with_fresh`), and lookups and evictions keep it so (`fresh_act`). What
remains is to see to it when the backing store changes.

Who inserts what the backing store is to have next has not to fear what was
cached before: only a load may put something else in its place (`Holds`). If loads
have put and read nothing else (`LoadFresh`), the key is fresh with the change
(`fresh_of_holds`). -/
namespace Hopr.Library

structure Cache (K V : Type) where
  entries : K → Option V
  /-- The keys in loading, and what was read for them. -/
  loading : K → Option (Option V)
  /-- The entry of the key, if there is one, was put there by a load. -/
  by_load : K → Bool

namespace Cache
variable {K V : Type}

inductive Action (K : Type) where
  | load (k : K)
  | read (k : K)
  | finish (k : K)
  | evict (k : K)

def empty : Cache K V := ⟨fun _ => none, fun _ => none, fun _ => false⟩

/-- What a lookup answers, where a load would read `init`. -/
def get_with (c : Cache K V) (k : K) (init : V) : V :=
  match c.entries k with
  | some v => v
  | none =>
    match c.loading k with
    | some (some v) => v
    | _ => init

/-- No load has read another value than the backing store has. -/
def Loaded (c : Cache K V) (backing : K → V) (k : K) : Prop :=
  ∀ v, c.loading k = some (some v) → v = backing k

/-- Neither the entry nor a load has another value than the backing store. -/
structure Fresh (c : Cache K V) (backing : K → V) (k : K) : Prop where
  entry : ∀ v, c.entries k = some v → v = backing k
  loaded : c.Loaded backing k

/-- Loads have neither put another value under the key nor read another one for it. -/
structure LoadFresh (c : Cache K V) (backing : K → V) (k : K) : Prop where
  entry : c.by_load k = true → ∀ v, c.entries k = some v → v = backing k
  loaded : c.Loaded backing k

/-- The entry that was not put there by a load has the value. -/
def Holds (c : Cache K V) (k : K) (v : V) : Prop := c.by_load k = false → ∀ w, c.entries k = some w → w = v

instance [DecidableEq V] (c : Cache K V) (backing : K → V) (k : K) : Decidable (c.Loaded backing k) :=
  decidable_of_iff (∀ v ∈ (c.loading k).join, v = backing k) (by simp [Loaded, Option.join_eq_some_iff])

instance [DecidableEq V] (c : Cache K V) (backing : K → V) (k : K) : Decidable (c.Fresh backing k) :=
  decidable_of_iff ((∀ v ∈ c.entries k, v = backing k) ∧ c.Loaded backing k)
    ⟨fun h => ⟨h.1, h.2⟩, fun h => ⟨h.entry, h.loaded⟩⟩

instance [DecidableEq V] (c : Cache K V) (backing : K → V) (k : K) : Decidable (c.LoadFresh backing k) :=
  decidable_of_iff ((c.by_load k = true → ∀ v ∈ c.entries k, v = backing k) ∧ c.Loaded backing k)
    ⟨fun h => ⟨h.1, h.2⟩, fun h => ⟨h.entry, h.loaded⟩⟩

variable {c c' : Cache K V} {backing : K → V} {k : K}

theorem fresh_of_holds (h : c.Holds k (backing k)) (hload : c.LoadFresh backing k) : c.Fresh backing k := by
  refine ⟨?_, hload.loaded⟩
  cases horigin : c.by_load k with
  | true => exact hload.entry horigin
  | false => exact h horigin

theorem fresh_empty : (empty : Cache K V).Fresh backing k :=
  ⟨fun _ h => (nomatch h), fun _ h => (nomatch h)⟩

theorem get_with_fresh (h : c.Fresh backing k) : c.get_with k (backing k) = backing k := by
  unfold get_with
  split
  · next v hentry => exact h.entry v hentry
  · split
    · next v hloaded => exact h.loaded v hloaded
    · rfl

theorem Fresh.congr {backing' : K → V} (h : c.Fresh backing k) (heq : backing' k = backing k) :
    c.Fresh backing' k :=
  ⟨fun v hv => (h.entry v hv).trans heq.symm, fun v hv => (h.loaded v hv).trans heq.symm⟩

variable [DecidableEq K]

def insert (c : Cache K V) (k : K) (v : V) : Cache K V :=
  {c with entries := Function.update c.entries k (some v), by_load := Function.update c.by_load k false}

def invalidate (c : Cache K V) (k : K) : Cache K V :=
  {c with entries := Function.update c.entries k none}

/-- One step of a lookup, or an eviction. -/
def act (backing : K → V) (c : Cache K V) : Action K → Option (Cache K V)
  | .load k =>
    if (c.entries k).isNone && (c.loading k).isNone
    then some {c with loading := Function.update c.loading k (some none)}
    else none
  | .read k =>
    match c.loading k with
    | some none => some {c with loading := Function.update c.loading k (some (some (backing k)))}
    | _ => none
  | .finish k =>
    match c.loading k with
    | some (some v) =>
      some ⟨Function.update c.entries k (some v), Function.update c.loading k none,
        Function.update c.by_load k true⟩
    | _ => none
  | .evict k => some (c.invalidate k)

theorem of_update {W : Type} {f : K → Option W} {k' : K} {o : Option W} {w : W}
    (h : Function.update f k' o k = some w) : (k = k' ∧ o = some w) ∨ f k = some w := by
  rw [Function.update_apply] at h
  split at h
  · next hk => exact .inl ⟨hk, h⟩
  · exact .inr h

theorem fresh_insert_other {k' : K} {v : V} (h : k ≠ k') (hfresh : c.Fresh backing k) :
    (c.insert k' v).Fresh backing k := by
  refine ⟨fun w hw => ?_, hfresh.loaded⟩
  obtain ⟨hk, _⟩ | hw := of_update hw
  · exact absurd hk h
  · exact hfresh.entry w hw

theorem fresh_invalidate {k' : K} (hfresh : c.Fresh backing k) : (c.invalidate k').Fresh backing k := by
  refine ⟨fun w hw => ?_, hfresh.loaded⟩
  obtain ⟨_, hnone⟩ | hw := of_update hw
  · cases hnone
  · exact hfresh.entry w hw

/-- An entry that is invalidated leaves at most a load behind. -/
theorem fresh_invalidate_self (h : c.Loaded backing k) :
    (c.invalidate k).Fresh backing k := by
  refine ⟨fun w hw => ?_, h⟩
  have hnone : (c.invalidate k).entries k = none := Function.update_self ..
  rw [hnone] at hw
  cases hw

theorem holds_insert (c : Cache K V) (k : K) (v : V) : (c.insert k v).Holds k v := by
  intro _ w hw
  have hentry : (c.insert k v).entries k = some v := Function.update_self ..
  exact (Option.some.inj (hentry.symm.trans hw)).symm

/-- Lookups and evictions leave nothing else than what was inserted, but for what loads put there. -/
theorem holds_act {v : V} {a : Action K} (hact : c.act backing a = some c') (h : c.Holds k v) :
    c'.Holds k v := by
  cases a with
  | load k' =>
    simp only [act] at hact
    split at hact
    · cases hact
      exact h
    · cases hact
  | read k' =>
    simp only [act] at hact
    split at hact
    · cases hact
      exact h
    · cases hact
  | finish k' =>
    simp only [act] at hact
    split at hact
    · cases hact
      intro horigin w hw
      by_cases hk : k = k'
      · have hload : Function.update c.by_load k' true k = true := by rw [hk, Function.update_self]
        cases horigin.symm.trans hload
      · have hsame : Function.update c.by_load k' true k = c.by_load k := Function.update_of_ne hk ..
        exact h (hsame.symm.trans horigin) w ((of_update hw).resolve_left fun hother => hk hother.1)
    · cases hact
  | evict k' =>
    cases hact
    intro horigin w hw
    obtain ⟨_, hnone⟩ | hw := of_update hw
    · cases hnone
    · exact h horigin w hw

/-- What a lookup does before it finishes leaves the entries. -/
theorem entries_act {a : Action K} (hact : c.act backing a = some c') (hfinish : ∀ k, a ≠ .finish k)
    (hevict : ∀ k, a ≠ .evict k) : c'.entries = c.entries := by
  cases a with
  | load k' =>
    simp only [act] at hact
    split at hact
    · cases hact
      rfl
    · cases hact
  | read k' =>
    simp only [act] at hact
    split at hact
    · cases hact
      rfl
    · cases hact
  | finish k' => exact absurd rfl (hfinish k')
  | evict k' => exact absurd rfl (hevict k')

/-- Lookups and evictions keep keys fresh. -/
theorem fresh_act {a : Action K} (hact : c.act backing a = some c') (h : c.Fresh backing k) :
    c'.Fresh backing k := by
  cases a with
  | load k' =>
    simp only [act] at hact
    split at hact
    · cases hact
      refine ⟨h.entry, fun w hw => ?_⟩
      obtain ⟨_, hunread⟩ | hw := of_update hw
      · cases hunread
      · exact h.loaded w hw
    · cases hact
  | read k' =>
    simp only [act] at hact
    split at hact
    · cases hact
      refine ⟨h.entry, fun w hw => ?_⟩
      obtain ⟨hk, hread⟩ | hw := of_update hw
      · cases hread; rw [hk]
      · exact h.loaded w hw
    · cases hact
  | finish k' =>
    simp only [act] at hact
    split at hact
    · next v hv =>
      cases hact
      constructor
      · intro w hw
        obtain ⟨hk, hloaded⟩ | hw := of_update hw
        · cases hloaded; exact h.loaded v (hk ▸ hv)
        · exact h.entry w hw
      · intro w hw
        obtain ⟨_, hnone⟩ | hw := of_update hw
        · cases hnone
        · exact h.loaded w hw
    · cases hact
  | evict k' =>
    cases hact
    exact fresh_invalidate h

end Cache

end Hopr.Library
