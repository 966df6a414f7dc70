import Mathlib.Data.List.TakeWhile

/-! Lists whose chosen elements come first.

A loop that takes elements from the front of a list while they satisfy `p` takes
exactly those that do if the list is in such an order (`Front`). -/
namespace Hopr.Library

variable {α : Type} {p : α → Bool} {l : List α}

/-- Whatever comes before an element that satisfies `p` satisfies it. -/
def Front (p : α → Bool) (l : List α) : Prop := l.Pairwise fun a b => p b = true → p a = true

theorem Front.filter_of_neg {a : α} (h : Front p (a :: l)) (ha : p a = false) : l.filter p = [] := by
  rw [List.filter_eq_nil_iff]
  intro b hb hpb
  rw [(List.pairwise_cons.mp h).1 b hb hpb] at ha
  cases ha

theorem Front.takeWhile_eq (h : Front p l) : l.takeWhile p = l.filter p := by
  induction l with
  | nil => rfl
  | cons a l ih =>
    cases ha : p a with
    | true => rw [List.takeWhile_cons_of_pos ha, List.filter_cons_of_pos ha, ih (List.pairwise_cons.mp h).2]
    | false =>
      have hneg : ¬ p a = true := by rw [ha]; decide
      rw [List.takeWhile_cons_of_neg hneg, List.filter_cons_of_neg hneg, h.filter_of_neg ha]

theorem Front.dropWhile_eq (h : Front p l) : l.dropWhile p = l.filter fun a => !p a := by
  induction l with
  | nil => rfl
  | cons a l ih =>
    cases ha : p a with
    | true =>
      rw [List.dropWhile_cons_of_pos ha, List.filter_cons_of_neg (by rw [ha]; decide),
        ih (List.pairwise_cons.mp h).2]
    | false =>
      have hrest : l.filter (fun a => !p a) = l := by
        apply List.filter_eq_self.mpr
        intro b hb
        rw [Bool.not_eq_true']
        exact Bool.eq_false_iff.mpr (List.filter_eq_nil_iff.mp (h.filter_of_neg ha) b hb)
      rw [List.dropWhile_cons_of_neg (by rw [ha]; decide), List.filter_cons_of_pos (by rw [ha]; rfl), hrest]

/-- What is behind the front does not satisfy `p`. -/
theorem Front.not_of_mem_dropWhile (h : Front p l) {a : α} (ha : a ∈ l.dropWhile p) : p a = false := by
  rw [h.dropWhile_eq, List.mem_filter, Bool.not_eq_true'] at ha
  exact ha.2

end Hopr.Library
