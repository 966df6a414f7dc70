import Mathlib.Data.List.Basic

/-! Places in a list.

Things that come one after another and change later are kept in a list, each at
the place it got when it came. What stands at a place after one more came
(`concat_cases`), or after the thing at a place changed (`set_cases`), is the
new thing or stood there before. -/
namespace Hopr.Library.Places

variable {α : Type} {l : List α} {a b : α}

theorem concat_cases {i : Nat} (h : (l ++ [a])[i]? = some b) :
    l[i]? = some b ∨ i = l.length ∧ b = a := by
  by_cases hi : i < l.length
  · rw [List.getElem?_append_left hi] at h
    exact Or.inl h
  · rw [List.getElem?_append_right (Nat.le_of_not_lt hi)] at h
    have hi' := (List.getElem?_eq_some_iff.mp h).1
    rw [List.length_singleton] at hi'
    rw [show i - l.length = 0 by omega] at h
    exact Or.inr ⟨by omega, (Option.some.inj h).symm⟩

/-- What stood at a place stands there when more came. -/
theorem concat_old {i : Nat} (h : l[i]? = some b) : (l ++ [a])[i]? = some b :=
  (List.getElem?_append_left (List.getElem?_eq_some_iff.mp h).1).trans h

theorem set_cases {i j : Nat} (h : (l.set i a)[j]? = some b) :
    j = i ∧ b = a ∨ j ≠ i ∧ l[j]? = some b := by
  by_cases hij : i = j
  · subst hij
    have hi : i < (l.set i a).length := (List.getElem?_eq_some_iff.mp h).1
    rw [List.length_set] at hi
    rw [List.getElem?_set_self hi] at h
    exact Or.inl ⟨rfl, (Option.some.inj h).symm⟩
  · rw [List.getElem?_set_ne hij] at h
    exact Or.inr ⟨fun hji => hij hji.symm, h⟩

theorem set_self {i : Nat} (h : l[i]? = some b) : (l.set i a)[i]? = some a :=
  List.getElem?_set_self (List.getElem?_eq_some_iff.mp h).1

end Hopr.Library.Places
