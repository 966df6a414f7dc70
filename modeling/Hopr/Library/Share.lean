import Mathlib.Algebra.Order.Field.Basic
import Mathlib.Tactic.Linarith
import Mathlib.Tactic.Ring

/-! Rates, some of them missing.

A rate is a share of a whole (`Share`). It gets worse when it falls; one that was
missing gets worse when a zero comes up in its place (`Worse`). Of two rates each may
be missing: they are put together by `Option.merge`, and for the minimum and the mean
(`Merging`) the result gets worse when both do (`Merging.worse`). -/
namespace Hopr.Library

variable {F : Type} [Field F] [LinearOrder F]

/-- A share of a whole. -/
def Share (x : F) : Prop := 0 ≤ x ∧ x ≤ 1

/-- What is left of one where there was one, and zero where there was none. -/
def Worse (after before : Option F) : Prop :=
  (∀ x, before = some x → ∃ y, after = some y ∧ y ≤ x) ∧ (before = none → ∀ y, after = some y → y = 0)

/-- Two rates are put together: what comes of them rises with both, and beside nothing one does not gain. -/
structure Merging (f : F → F → F) : Prop where
  share : ∀ {x y}, Share x → Share y → Share (f x y)
  mono : ∀ {x y x' y'}, x' ≤ x → y' ≤ y → f x' y' ≤ f x y
  left : ∀ {x}, 0 ≤ x → f x 0 ≤ x
  right : ∀ {y}, 0 ≤ y → f 0 y ≤ y

namespace Worse

theorem refl (x : Option F) : Worse x x := by
  constructor
  · exact fun y hy => ⟨y, hy, le_refl y⟩
  · intro hnone y hy
    cases hnone.symm.trans hy

theorem map {after before : Option F} (h : Worse after before) {f : F → F} (hmono : Monotone f) (hzero : f 0 = 0) :
    Worse (after.map f) (before.map f) := by
  constructor
  · intro x hx
    obtain ⟨x, hbefore, rfl⟩ := Option.map_eq_some_iff.mp hx
    obtain ⟨y, hafter, hle⟩ := h.1 x hbefore
    exact ⟨f y, by rw [hafter, Option.map_some], hmono hle⟩
  · intro hnone y hy
    obtain ⟨y, hafter, rfl⟩ := Option.map_eq_some_iff.mp hy
    rw [h.2 (Option.map_eq_none_iff.mp hnone) y hafter, hzero]

end Worse

theorem merging_min : Merging (min : F → F → F) where
  share hx hy := ⟨le_min hx.1 hy.1, (min_le_left ..).trans hx.2⟩
  mono hx hy := min_le_min hx hy
  left _ := min_le_left ..
  right _ := min_le_right ..

theorem Merging.merge {f : F → F → F} (hf : Merging f) {x y : Option F} (hx : ∀ a ∈ x, Share a)
    (hy : ∀ a ∈ y, Share a) : ∀ a ∈ x.merge f y, Share a := by
  intro a ha
  rcases Option.merge_eq_some_iff.mp ha with ⟨hxa, _⟩ | ⟨_, hya⟩ | ⟨b, c, hxb, hyc, rfl⟩
  · exact hx a hxa
  · exact hy a hya
  · exact hf.share (hx b hxb) (hy c hyc)

variable [IsStrictOrderedRing F]

theorem Share.mul {x y : F} (hx : Share x) (hy : Share y) : Share (x * y) :=
  ⟨mul_nonneg hx.1 hy.1, mul_le_one₀ hx.2 hy.1 hy.2⟩

/-- A part of the way from one to another. -/
theorem Share.towards {x y part : F} (hx : Share x) (hy : Share y) (hpart : Share part) :
    Share (x + part * (y - x)) := by
  have heq : x + part * (y - x) = (1 - part) * x + part * y := by ring
  have hrest : 0 ≤ 1 - part := sub_nonneg.mpr hpart.2
  constructor
  · rw [heq]
    exact add_nonneg (mul_nonneg hrest hx.1) (mul_nonneg hpart.1 hy.1)
  · calc x + part * (y - x) = (1 - part) * x + part * y := heq
      _ ≤ (1 - part) * 1 + part * 1 :=
        add_le_add (mul_le_mul_of_nonneg_left hx.2 hrest) (mul_le_mul_of_nonneg_left hy.2 hpart.1)
      _ = 1 := by ring

theorem merging_mean : Merging (fun x y : F => (x + y) / 2) where
  share := by
    rintro x y ⟨hx, hx'⟩ ⟨hy, hy'⟩
    constructor <;> linarith
  mono hx hy := by linarith
  left hx := by linarith
  right hy := by linarith

namespace Merging
variable {f : F → F → F} {x x' y y' : Option F}

theorem zero (hf : Merging f) : f 0 0 = 0 := by
  have hshare : Share (0 : F) := ⟨le_refl 0, zero_le_one⟩
  exact le_antisymm (hf.left (le_refl 0)) (hf.share hshare hshare).1

/-- When both get worse what is merged gets worse. -/
theorem worse (hf : Merging f) (hx : Worse x' x) (hy : Worse y' y) (hxs : ∀ a ∈ x, Share a)
    (hys : ∀ a ∈ y, Share a) : Worse (x'.merge f y') (x.merge f y) := by
  cases x with
  | none =>
    cases y with
    | none =>
      refine ⟨fun z hz => (nomatch hz), fun _ z hz => ?_⟩
      rcases Option.merge_eq_some_iff.mp hz with ⟨ha, _⟩ | ⟨_, hb⟩ | ⟨a, b, ha, hb, rfl⟩
      · exact hx.2 rfl z ha
      · exact hy.2 rfl z hb
      · rw [hx.2 rfl a ha, hy.2 rfl b hb, hf.zero]
    | some b =>
      obtain ⟨b', rfl, hle⟩ := hy.1 b rfl
      refine ⟨?_, fun hnone => (nomatch hnone)⟩
      rintro z ⟨⟩
      cases x' with
      | none => exact ⟨b', rfl, hle⟩
      | some a' =>
        cases hx.2 rfl a' rfl
        exact ⟨f 0 b', rfl, (hf.mono (le_refl 0) hle).trans (hf.right (hys b rfl).1)⟩
  | some a =>
    obtain ⟨a', rfl, hle⟩ := hx.1 a rfl
    cases y with
    | none =>
      refine ⟨?_, fun hnone => (nomatch hnone)⟩
      rintro z ⟨⟩
      cases y' with
      | none => exact ⟨a', rfl, hle⟩
      | some b' =>
        cases hy.2 rfl b' rfl
        exact ⟨f a' 0, rfl, (hf.mono hle (le_refl 0)).trans (hf.left (hxs a rfl).1)⟩
    | some b =>
      obtain ⟨b', rfl, hle'⟩ := hy.1 b rfl
      refine ⟨?_, fun hnone => (nomatch hnone)⟩
      rintro z ⟨⟩
      exact ⟨f a' b', rfl, hf.mono hle hle'⟩

end Merging

end Hopr.Library
