import Mathlib.Data.List.Basic
import Mathlib.Logic.Function.Basic

/-! Indexes beside a table.

The rows of a table are found by their ids, and by a view of the row (one of its
columns) through an index from views to ids. When a row is replaced, the entry
of the old row is removed from the index and that of the new row is put in. The
entries then always lead to a row with that view (`Sound`), but a view that two
rows share has one entry only: when one of the two gives the view up, the other
one is no longer found. A row that is alone with its view is found in all other
cases (`complete_replace_iff`). -/
namespace Hopr.Library.SecondaryIndex
variable {I V K : Type} (view : V → K)

/-- The row has the view. -/
def Holds (rows : I → Option V) (id : I) (k : K) : Prop := ∃ v, rows id = some v ∧ view v = k

/-- No other row has the view that this one has. -/
def Alone (rows : I → Option V) (id : I) (k : K) : Prop :=
  Holds view rows id k ∧ ∀ other, Holds view rows other k → other = id

/-- Entries lead to rows with that view. -/
def Sound (rows : I → Option V) (index : K → Option I) : Prop :=
  ∀ k id, index k = some id → Holds view rows id k

/-- Rows that are alone with their view are found. -/
def Complete (rows : I → Option V) (index : K → Option I) : Prop :=
  ∀ k id, Alone view rows id k → index k = some id

/-- The row that is found through the index. -/
def lookup (rows : I → Option V) (index : K → Option I) (k : K) : Option V := (index k).bind rows

/-- A view that the row gives up is not left to exactly one other row. -/
def Spares (rows : I → Option V) (id : I) (new : V) : Prop :=
  ∀ old, rows id = some old → view old ≠ view new → ∀ other, other ≠ id → Holds view rows other (view old) →
    ∃ third, third ≠ id ∧ third ≠ other ∧ Holds view rows third (view old)

/-- The entry of the old row goes and that of the new one comes. -/
def replace [DecidableEq K] (rows : I → Option V) (index : K → Option I) (id : I) (new : V) : K → Option I :=
  let removed :=
    match rows id with
    | some old => Function.update index (view old) none
    | none => index
  Function.update removed (view new) (some id)

section Lookup
variable {view} {rows : I → Option V} {index : K → Option I} {k : K} {v : V}

theorem lookup_view (h : Sound view rows index) (hfound : lookup rows index k = some v) : view v = k := by
  obtain ⟨id, hid, hrow⟩ := Option.bind_eq_some_iff.mp hfound
  obtain ⟨w, hw, hview⟩ := h k id hid
  rw [Option.some.inj (hrow.symm.trans hw)]
  exact hview

theorem lookup_alone (h : Complete view rows index) {id : I} (hrow : rows id = some v)
    (halone : Alone view rows id k) : lookup rows index k = some v := by
  unfold lookup
  rw [h k id halone]
  exact hrow

/-- If the rows that are alone are found, where rows tell their ids, their entries are there. -/
theorem complete_of_lookup {id_of : V → I} (hids : ∀ id v, rows id = some v → id_of v = id)
    (h : ∀ id v, rows id = some v → Alone view rows id (view v) → lookup rows index (view v) = some v) :
    Complete view rows index := by
  intro k id halone
  obtain ⟨v, hrow, rfl⟩ := halone.1
  obtain ⟨found, hfound, hrow'⟩ := Option.bind_eq_some_iff.mp (h id v hrow halone)
  rw [hfound, ← hids id v hrow, ← hids found v hrow']

/-- Where one row at most has the view, a search of the table finds what the index does. -/
theorem find_eq_lookup [DecidableEq K] (hs : Sound view rows index) (hc : Complete view rows index)
    {id_of : V → I} (hids : ∀ id v, rows id = some v → id_of v = id) {table : List V}
    (htable : ∀ v, v ∈ table ↔ ∃ id, rows id = some v)
    (hone : ∀ v ∈ table, ∀ w ∈ table, view v = k → view w = k → v = w) :
    table.find? (fun v => view v = k) = lookup rows index k := by
  cases hfind : table.find? (fun v => view v = k) with
  | none =>
    symm
    rw [Option.eq_none_iff_forall_ne_some]
    intro v hfound
    obtain ⟨id, _, hrow⟩ := Option.bind_eq_some_iff.mp hfound
    have hnot := List.find?_eq_none.mp hfind v ((htable v).mpr ⟨id, hrow⟩)
    exact hnot (decide_eq_true (lookup_view hs hfound))
  | some v =>
    have hv := List.mem_of_find?_eq_some hfind
    have hview : view v = k := by simpa using List.find?_some hfind
    obtain ⟨id, hrow⟩ := (htable v).mp hv
    symm
    refine lookup_alone hc hrow ⟨⟨v, hrow, hview⟩, ?_⟩
    intro other ⟨w, hw, hview'⟩
    have heq := hone v hv w ((htable w).mpr ⟨other, hw⟩) hview hview'
    rw [← hids other w hw, ← heq, hids id v hrow]

end Lookup

section Replace
variable {view} {rows : I → Option V} {index : K → Option I} {id : I} {new : V}

section Holds
variable [DecidableEq I]

theorem holds_update_self {k : K} : Holds view (Function.update rows id (some new)) id k ↔ view new = k := by
  simp [Holds]

theorem holds_update_other {k : K} {other : I} (h : other ≠ id) :
    Holds view (Function.update rows id (some new)) other k ↔ Holds view rows other k := by
  unfold Holds
  rw [Function.update_of_ne h]

end Holds

variable [DecidableEq K]

theorem replace_new : replace view rows index id new (view new) = some id :=
  Function.update_self ..

/-- Nothing is found by a view that was given up. -/
theorem replace_old {old : V} (hold : rows id = some old) (hne : view old ≠ view new) :
    replace view rows index id new (view old) = none := by
  unfold replace
  rw [Function.update_of_ne hne, hold]
  exact Function.update_self ..

theorem replace_other {k : K} (hnew : k ≠ view new) (hold : ¬Holds view rows id k) :
    replace view rows index id new k = index k := by
  unfold replace
  rw [Function.update_of_ne hnew]
  cases hrow : rows id with
  | none => rfl
  | some old => exact Function.update_of_ne (fun heq => hold ⟨old, hrow, heq.symm⟩) ..

variable [DecidableEq I]

theorem sound_replace (h : Sound view rows index) :
    Sound view (Function.update rows id (some new)) (replace view rows index id new) := by
  intro k found hfound
  by_cases hnew : k = view new
  · subst hnew
    rw [replace_new] at hfound
    cases hfound
    exact holds_update_self.mpr rfl
  · by_cases hold : Holds view rows id k
    · obtain ⟨old, hrow, rfl⟩ := hold
      rw [replace_old hrow hnew] at hfound
      cases hfound
    · rw [replace_other hnew hold] at hfound
      have hrow := h k found hfound
      refine (holds_update_other ?_).mpr hrow
      intro heq
      rw [heq] at hrow
      exact hold hrow

/-- The new row is found by its view. -/
theorem lookup_replace_new :
    lookup (Function.update rows id (some new)) (replace view rows index id new) (view new) = some new := by
  unfold lookup
  rw [replace_new, Option.bind_some, Function.update_self]

/-- What is found by views that no row has gained or given up stays as it was. -/
theorem lookup_replace_other {k : K} (h : Sound view rows index) (hnew : k ≠ view new)
    (hold : ¬Holds view rows id k) :
    lookup (Function.update rows id (some new)) (replace view rows index id new) k = lookup rows index k := by
  unfold lookup
  rw [replace_other hnew hold]
  cases hfound : index k with
  | none => rfl
  | some found =>
    have hne : found ≠ id := fun heq => hold (heq ▸ h k found hfound)
    exact Function.update_of_ne hne ..

/-- The rows that are alone are found again, if and only if the row spares them. -/
theorem complete_replace_iff (h : Complete view rows index) :
    Complete view (Function.update rows id (some new)) (replace view rows index id new) ↔
      Spares view rows id new := by
  constructor
  · intro hcomplete old hrow hne other hother hholds
    apply Classical.byContradiction
    intro hthird
    -- The other row is alone with the view that was given up, and is not found.
    have halone : Alone view (Function.update rows id (some new)) other (view old) := by
      refine ⟨(holds_update_other hother).mpr hholds, fun third hholds' => ?_⟩
      by_cases hid : third = id
      · rw [hid, holds_update_self] at hholds'
        exact absurd hholds'.symm hne
      · apply Classical.byContradiction
        intro hne'
        exact hthird ⟨third, hid, hne', (holds_update_other hid).mp hholds'⟩
    have hfound := hcomplete _ _ halone
    rw [replace_old hrow hne] at hfound
    cases hfound
  · intro hspares k found ⟨hholds, halone⟩
    by_cases hid : found = id
    · rw [hid, holds_update_self] at hholds
      rw [← hholds, hid]
      exact replace_new
    · have hbefore := (holds_update_other hid).mp hholds
      have hnew : k ≠ view new := fun heq => hid (halone id (holds_update_self.mpr heq.symm)).symm
      have hold : ¬Holds view rows id k := by
        intro ⟨old, hrow, heq⟩
        obtain ⟨third, hthird, hne, hholds'⟩ :=
          hspares old hrow (heq ▸ hnew) found hid (heq ▸ hbefore)
        exact hne (halone third ((holds_update_other hthird).mpr (heq ▸ hholds')))
      rw [replace_other hnew hold]
      refine h k found ⟨hbefore, fun other hother => ?_⟩
      by_cases heq : other = id
      · exact absurd (heq ▸ hother) hold
      · exact halone other ((holds_update_other heq).mpr hother)

end Replace

end Hopr.Library.SecondaryIndex
