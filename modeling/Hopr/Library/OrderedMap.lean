import Mathlib.Data.List.Sort

/-! Ordered maps.

An `OrderedMap` is the list of its entries, each key once and in ascending
order. An insertion replaces the value of a key that is there; of a key that is
not, it is an ordered insertion (`insertEntry_fresh`). -/
namespace Hopr.Library

/-- The entries after an insertion. -/
def insertEntry {K V : Type} [LinearOrder K] (k : K) (v : V) : List (K × V) → List (K × V)
  | [] => [(k, v)]
  | e :: rest =>
    if k < e.1 then (k, v) :: e :: rest
    else if k = e.1 then (k, v) :: rest
    else e :: insertEntry k v rest

structure OrderedMap (K V : Type) [LinearOrder K] where
  entries : List (K × V)
  sorted : entries.Pairwise fun a b => a.1 < b.1

section Entries
variable {K V : Type} [LinearOrder K] {k : K} {v : V} {l : List (K × V)}

theorem mem_insertEntry {e : K × V} (h : e ∈ insertEntry k v l) : e = (k, v) ∨ e ∈ l := by
  induction l with
  | nil => exact Or.inl (List.mem_singleton.mp h)
  | cons a rest ih =>
    unfold insertEntry at h
    split_ifs at h
    · exact List.mem_cons.mp h
    · exact (List.mem_cons.mp h).imp_right (List.mem_cons_of_mem a)
    · cases List.mem_cons.mp h with
      | inl heq => exact Or.inr (heq ▸ List.mem_cons_self)
      | inr hmem => exact (ih hmem).imp_right (List.mem_cons_of_mem a)

theorem insertEntry_sorted (h : l.Pairwise fun a b => a.1 < b.1) :
    (insertEntry k v l).Pairwise fun a b => a.1 < b.1 := by
  induction l with
  | nil => exact List.pairwise_singleton _ _
  | cons a rest ih =>
    obtain ⟨ha, hrest⟩ := List.pairwise_cons.mp h
    unfold insertEntry
    split_ifs with hlt heq
    · refine List.pairwise_cons.mpr ⟨fun e he => ?_, h⟩
      cases List.mem_cons.mp he with
      | inl heq => exact heq ▸ hlt
      | inr hmem => exact hlt.trans (ha e hmem)
    · exact List.pairwise_cons.mpr ⟨fun e he => heq ▸ ha e he, hrest⟩
    · refine List.pairwise_cons.mpr ⟨fun e he => ?_, ih hrest⟩
      cases mem_insertEntry he with
      | inl hnew => exact hnew ▸ lt_of_le_of_ne (not_lt.mp hlt) (Ne.symm heq)
      | inr hmem => exact ha e hmem

/-- A key that is not there is inserted in order. -/
theorem insertEntry_fresh (h : ∀ e ∈ l, e.1 ≠ k) :
    insertEntry k v l = l.orderedInsert (fun a b => a.1 < b.1) (k, v) := by
  induction l with
  | nil => rfl
  | cons a rest ih =>
    have hne : k ≠ a.1 := (h a List.mem_cons_self).symm
    have hrest := ih fun e he => h e (List.mem_cons_of_mem a he)
    unfold insertEntry
    rw [List.orderedInsert, hrest, if_neg hne]

/-- Insertions at the same place keep two lists side by side. -/
theorem forall₂_orderedInsert {A B : Type} {R : A → B → Prop} {r : A → A → Prop} {r' : B → B → Prop}
    [DecidableRel r] [DecidableRel r'] {a : A} {b : B} {as : List A} {bs : List B} (hab : R a b)
    (hsame : ∀ x y, R x y → (r a x ↔ r' b y)) (h : List.Forall₂ R as bs) :
    List.Forall₂ R (as.orderedInsert r a) (bs.orderedInsert r' b) := by
  induction h with
  | nil => exact .cons hab .nil
  | cons hxy hrest ih =>
    simp only [List.orderedInsert, hsame _ _ hxy]
    split_ifs
    · exact .cons hab (.cons hxy hrest)
    · exact .cons hxy ih

/-- The entry is there, and the others of its key are not. -/
theorem insertEntry_perm (h : l.Pairwise fun a b => a.1 < b.1) :
    (insertEntry k v l).Perm ((k, v) :: l.filter fun e => e.1 ≠ k) := by
  induction l with
  | nil => exact List.Perm.refl _
  | cons a rest ih =>
    obtain ⟨ha, hrest⟩ := List.pairwise_cons.mp h
    have hall : ∀ {l' : List (K × V)}, (∀ e ∈ l', k < e.1) → l'.filter (fun e => e.1 ≠ k) = l' := by
      intro l' hl'
      apply List.filter_eq_self.mpr
      intro e he
      simpa using ne_of_gt (hl' e he)
    unfold insertEntry
    split_ifs with hlt heq
    · have hless : ∀ e ∈ a :: rest, k < e.1 := by
        intro e he
        cases List.mem_cons.mp he with
        | inl hea => exact hea ▸ hlt
        | inr hmem => exact hlt.trans (ha e hmem)
      rw [hall hless]
    · -- only the first entry is replaced
      rw [List.filter_cons_of_neg (by simp [heq]), hall (fun e he => heq ▸ ha e he)]
    · rw [List.filter_cons_of_pos (by simpa using Ne.symm heq)]
      exact ((ih hrest).cons a).trans (List.Perm.swap ..)

/-- A key that is there is not counted twice. -/
theorem length_insertEntry_present (hsorted : l.Pairwise fun a b => a.1 < b.1)
    (h : ∃ e ∈ l, e.1 = k) : (insertEntry k v l).length = l.length := by
  induction l with
  | nil =>
    obtain ⟨e, he, _⟩ := h
    cases he
  | cons a rest ih =>
    obtain ⟨ha, hrest⟩ := List.pairwise_cons.mp hsorted
    obtain ⟨e, he, hek⟩ := h
    unfold insertEntry
    split_ifs with hlt heq
    · -- the key would have to be before the first one
      cases List.mem_cons.mp he with
      | inl hea => exact absurd (hek ▸ hea ▸ hlt) (lt_irrefl _)
      | inr hmem => exact absurd (hlt.trans (ha e hmem)) (hek ▸ lt_irrefl _)
    · rfl
    · cases List.mem_cons.mp he with
      | inl hea => exact absurd (hek ▸ hea ▸ rfl) heq
      | inr hmem => simp only [List.length_cons, ih hrest ⟨e, hmem, hek⟩]

end Entries

namespace OrderedMap
variable {K V : Type} [LinearOrder K]

def empty : OrderedMap K V := ⟨[], List.Pairwise.nil⟩

def insert (k : K) (v : V) (m : OrderedMap K V) : OrderedMap K V :=
  ⟨insertEntry k v m.entries, insertEntry_sorted m.sorted⟩

def first (m : OrderedMap K V) : Option (K × V) := m.entries.head?

/-- The first entry, and the map without it. -/
def pop_first (m : OrderedMap K V) : Option (K × V) × OrderedMap K V :=
  (m.entries.head?, ⟨m.entries.tail, m.sorted.tail⟩)

def len (m : OrderedMap K V) : Nat := m.entries.length

def is_empty (m : OrderedMap K V) : Bool := m.entries.isEmpty

end OrderedMap

end Hopr.Library
