import Mathlib.Data.List.AList
import Mathlib.Logic.Function.Basic

/-! Cells that are shared by reference.

A `Heap` gives out references to cells; whoever holds a reference sees what was
last written through it. A table from names to references is `Named` in a heap
when every reference in it was given out and no two names share one, so that a
write through the reference of one name is not seen under another. Naming a new
cell, dropping a name and writing preserve it. -/
namespace Hopr.Library

structure Heap (α : Type) where
  cell : Nat → α
  next : Nat

namespace Heap
variable {α : Type}

/-- No reference was given out; `a` stands in every cell. -/
def new (a : α) : Heap α := ⟨fun _ => a, 0⟩

def set (r : Nat) (a : α) (h : Heap α) : Heap α := {h with cell := Function.update h.cell r a}

def alloc (a : α) (h : Heap α) : Nat × Heap α :=
  (h.next, ⟨Function.update h.cell h.next a, h.next + 1⟩)

@[simp] theorem cell_set_self (r : Nat) (a : α) (h : Heap α) : (h.set r a).cell r = a :=
  Function.update_self ..

theorem cell_set_ne {r r' : Nat} (hr : r' ≠ r) (a : α) (h : Heap α) :
    (h.set r a).cell r' = h.cell r' := Function.update_of_ne hr ..

@[simp] theorem set_cell (r : Nat) (h : Heap α) : h.set r (h.cell r) = h := by
  simp only [set, Function.update_eq_self]

@[simp] theorem cell_alloc_self (a : α) (h : Heap α) : (h.alloc a).2.cell h.next = a :=
  Function.update_self ..

theorem cell_alloc_lt {r : Nat} (a : α) {h : Heap α} (hr : r < h.next) :
    (h.alloc a).2.cell r = h.cell r := Function.update_of_ne (Nat.ne_of_lt hr) ..

/-! ### Tables of references -/

variable {K : Type} [DecidableEq K]

/-- A table of references. -/
abbrev Table (K : Type) := AList fun _ : K => Nat

theorem lookup_insert_cases {t : Table K} {k k' : K} {r r' : Nat}
    (h : (t.insert k r).lookup k' = some r') :
    k' = k ∧ r' = r ∨ k' ≠ k ∧ t.lookup k' = some r' := by
  by_cases hk : k' = k
  · subst hk
    rw [AList.lookup_insert] at h
    exact Or.inl ⟨rfl, (Option.some.inj h).symm⟩
  · rw [AList.lookup_insert_ne hk] at h
    exact Or.inr ⟨hk, h⟩

theorem lookup_erase_cases {t : Table K} {k k' : K} {r : Nat} (h : (t.erase k).lookup k' = some r) :
    k' ≠ k ∧ t.lookup k' = some r := by
  by_cases hk : k' = k
  · subst hk
    rw [AList.lookup_erase] at h
    cases h
  · rw [AList.lookup_erase_ne hk] at h
    exact ⟨hk, h⟩

/-- A table has one entry of a name, or none. -/
theorem filter_entries (t : Table K) (k : K) :
    t.entries.filter (fun e => k = e.1) = (t.lookup k).toList.map (Sigma.mk k) := by
  obtain ⟨l, hl⟩ := t
  show l.filter _ = (l.dlookup k).toList.map _
  induction l with
  | nil => rfl
  | cons e rest ih =>
    obtain ⟨k', r⟩ := e
    obtain ⟨hk', hrest⟩ := List.nodupKeys_cons.mp hl
    by_cases hk : k = k'
    · subst hk
      have hnone : rest.filter (fun e => k = e.1) = [] := by
        rw [ih hrest, List.dlookup_eq_none.mpr hk']
        rfl
      rw [List.filter_cons_of_pos (by simp), hnone, List.dlookup_cons_eq]
      rfl
    · rw [List.filter_cons_of_neg (by simpa using hk), ih hrest, List.dlookup_cons_ne _ _ hk]

/-- The references of the table were given out, each under one name. -/
structure Named (h : Heap α) (t : Table K) : Prop where
  allocated : ∀ {k r}, t.lookup k = some r → r < h.next
  distinct : ∀ {k k' r}, t.lookup k = some r → t.lookup k' = some r → k = k'

theorem named_empty (h : Heap α) : Named h (∅ : Table K) :=
  ⟨fun hr => (nomatch hr), fun hr => (nomatch hr)⟩

theorem Named.set {h : Heap α} {t : Table K} (hn : Named h t) (r : Nat) (a : α) :
    Named (h.set r a) t := ⟨hn.allocated, hn.distinct⟩

theorem Named.alloc {h : Heap α} {t : Table K} (hn : Named h t) (k : K) (a : α) :
    Named (h.alloc a).2 (t.insert k h.next) := by
  have hold : ∀ {k' r}, t.lookup k' = some r → r ≠ h.next := fun hr =>
    Nat.ne_of_lt (hn.allocated hr)
  refine ⟨fun hr => ?_, fun hr hr' => ?_⟩
  · rcases lookup_insert_cases hr with ⟨_, rfl⟩ | ⟨_, hr⟩
    · exact Nat.lt_succ_self _
    · exact Nat.lt_succ_of_lt (hn.allocated hr)
  · rcases lookup_insert_cases hr with ⟨rfl, rfl⟩ | ⟨_, hr⟩
    · rcases lookup_insert_cases hr' with ⟨rfl, _⟩ | ⟨_, hr'⟩
      · rfl
      · exact absurd rfl (hold hr')
    · rcases lookup_insert_cases hr' with ⟨_, rfl⟩ | ⟨_, hr'⟩
      · exact absurd rfl (hold hr)
      · exact hn.distinct hr hr'

theorem Named.erase {h : Heap α} {t : Table K} (hn : Named h t) (k : K) : Named h (t.erase k) :=
  ⟨fun hr => hn.allocated (lookup_erase_cases hr).2,
    fun hr hr' => hn.distinct (lookup_erase_cases hr).2 (lookup_erase_cases hr').2⟩

/-- Two names have two references. -/
theorem Named.ne {h : Heap α} {t : Table K} (hn : Named h t) {k k' : K} {r r' : Nat} (hk : k' ≠ k)
    (hr : t.lookup k = some r) (hr' : t.lookup k' = some r') : r' ≠ r := by
  rintro rfl
  exact hk (hn.distinct hr' hr)

end Heap

end Hopr.Library
