import Mathlib.Algebra.Order.Field.Basic
import Mathlib.Tactic.Ring

/-! Sums that forget.

Before a sum is added to, it is scaled down by a fixed factor (`decayed`), so that
it stays within bounds however much is added. Two such sums over the same history
are compared: one that is added nothing to shrinks by the factor each time
(`decayed_zeros`), and one whose additions are large enough does not (`le_decayed`). -/
namespace Hopr.Library

variable {F : Type} [Field F] {factor : F}

/-- What a sum has become after additions, each of them after the sum was scaled. -/
def decayed (factor : F) (sum : F) (added : List F) : F := added.foldl (fun sum x => sum * factor + x) sum

theorem decayed_append (sum : F) (before added : List F) :
    decayed factor sum (before ++ added) = decayed factor (decayed factor sum before) added :=
  List.foldl_append

theorem decayed_zeros (sum : F) {added : List F} (hadded : ∀ x ∈ added, x = 0) :
    decayed factor sum added = sum * factor ^ added.length := by
  induction added generalizing sum with
  | nil => rw [List.length_nil, pow_zero, mul_one]; rfl
  | cons x rest ih =>
    obtain ⟨hx, hrest⟩ := List.forall_mem_cons.mp hadded
    show decayed factor (sum * factor + x) rest = _
    rw [ih _ hrest, hx, add_zero, List.length_cons, pow_succ', mul_assoc]

variable [LinearOrder F] [IsStrictOrderedRing F]

theorem decayed_mono (hfactor : 0 ≤ factor) {sum sum' : F} (hsum : sum ≤ sum') {pairs : List (F × F)}
    (hpairs : ∀ p ∈ pairs, p.2 ≤ p.1) :
    decayed factor sum (pairs.map Prod.snd) ≤ decayed factor sum' (pairs.map Prod.fst) := by
  induction pairs generalizing sum sum' with
  | nil => exact hsum
  | cons p rest ih =>
    obtain ⟨hp, hrest⟩ := List.forall_mem_cons.mp hpairs
    exact ih (add_le_add (mul_le_mul_of_nonneg_right hsum hfactor) hp) hrest

theorem decayed_nonneg (hfactor : 0 ≤ factor) {sum : F} (hsum : 0 ≤ sum) {added : List F}
    (hadded : ∀ x ∈ added, 0 ≤ x) : 0 ≤ decayed factor sum added := by
  induction added generalizing sum with
  | nil => exact hsum
  | cons x rest ih =>
    obtain ⟨hx, hrest⟩ := List.forall_mem_cons.mp hadded
    exact ih (add_nonneg (mul_nonneg hsum hfactor) hx) hrest

/-- The bound of a sum whose additions are bounded: that of the geometric series. -/
theorem decayed_le (hfactor : 0 ≤ factor) {bound sum : F} (hsum : sum * (1 - factor) ≤ bound) {added : List F}
    (hadded : ∀ x ∈ added, x ≤ bound) (hone : factor ≤ 1) : decayed factor sum added * (1 - factor) ≤ bound := by
  induction added generalizing sum with
  | nil => exact hsum
  | cons x rest ih =>
    obtain ⟨hx, hrest⟩ := List.forall_mem_cons.mp hadded
    apply ih _ hrest
    have hold := mul_le_mul_of_nonneg_right hsum hfactor
    have hnew := mul_le_mul_of_nonneg_right hx (sub_nonneg.mpr hone)
    calc (sum * factor + x) * (1 - factor)
        = sum * (1 - factor) * factor + x * (1 - factor) := by ring
      _ ≤ bound * factor + bound * (1 - factor) := add_le_add hold hnew
      _ = bound := by ring

/-- A sum within the bound of the series does not shrink by additions of at least that size. -/
theorem le_decayed (hfactor : 0 ≤ factor) {bound sum : F} (hsum : sum * (1 - factor) ≤ bound) {added : List F}
    (hadded : ∀ x ∈ added, bound ≤ x) : sum ≤ decayed factor sum added := by
  have hkept : ∀ sum', sum ≤ sum' → sum ≤ decayed factor sum' added := by
    induction added with
    | nil => exact fun _ hle => hle
    | cons x rest ih =>
      obtain ⟨hx, hrest⟩ := List.forall_mem_cons.mp hadded
      intro sum' hle
      apply ih hrest
      have hscaled := mul_le_mul_of_nonneg_right hle hfactor
      calc sum = sum * factor + sum * (1 - factor) := by ring
        _ ≤ sum' * factor + x := add_le_add hscaled (hsum.trans hx)
  exact hkept sum le_rfl

/-- The last addition is there in full. -/
theorem decayed_ge_last (hfactor : 0 ≤ factor) {bound sum : F} (hsum : 0 ≤ sum) (hbound : 0 ≤ bound) {added : List F}
    (hadded : ∀ x ∈ added, bound ≤ x) (hne : added ≠ []) : bound ≤ decayed factor sum added := by
  rw [← List.dropLast_concat_getLast hne, decayed_append]
  have hbefore : 0 ≤ decayed factor sum added.dropLast := decayed_nonneg hfactor hsum fun x hx =>
    hbound.trans (hadded x (List.dropLast_subset added hx))
  exact (hadded _ (List.getLast_mem hne)).trans (le_add_of_nonneg_left (mul_nonneg hbefore hfactor))

/-- The share of one sum in another falls with each addition to the other alone, whatever it was before. -/
theorem decayed_share (hfactor : 0 ≤ factor) (hone : factor ≤ 1) {bound : F} (hbound : 0 ≤ bound)
    {before later : List (F × F)} (hbefore : ∀ p ∈ before, 0 ≤ p.2 ∧ p.2 ≤ p.1 ∧ p.1 ≤ bound)
    (hlater : ∀ p ∈ later, p.2 = 0 ∧ bound ≤ p.1) :
    decayed factor (decayed factor 0 (before.map Prod.snd)) (later.map Prod.snd) ≤
      decayed factor (decayed factor 0 (before.map Prod.fst)) (later.map Prod.fst) * factor ^ later.length := by
  have hwhole : decayed factor 0 (before.map Prod.fst) * (1 - factor) ≤ bound :=
    decayed_le hfactor (by rwa [zero_mul]) (List.forall_mem_map.mpr fun p hp => (hbefore p hp).2.2) hone
  have hkept := le_decayed hfactor hwhole (List.forall_mem_map.mpr fun p hp => (hlater p hp).2)
  have hpart := decayed_mono hfactor (le_refl 0) fun p hp => (hbefore p hp).2.1
  rw [decayed_zeros _ (List.forall_mem_map.mpr fun p hp => (hlater p hp).1), List.length_map]
  exact mul_le_mul_of_nonneg_right (hpart.trans hkept) (pow_nonneg hfactor _)

end Hopr.Library
