import Mathlib.Data.List.Forall2
import Hopr.Library.Machine

/-! What a machine puts out along a run.

Each step puts out a list, and a run what its steps put out in order. Where steps put
in at the end of a queue and take out from its front, what came out and what is still
in the queue are what went in (`outputs_of_queue`). -/
namespace Hopr.Library.Machine

variable {S A X Y : Type} (M : Machine S A)

/-- What the steps of a run put out. -/
def outputs (out : S → A → List X) : S → List A → List X
  | _, [] => []
  | s, a :: rest => out s a ++ ((M.step s a).map fun s' => outputs out s' rest).getD []

@[simp] theorem outputs_nil (out : S → A → List X) (s : S) : M.outputs out s [] = [] := rfl

theorem outputs_cons {out : S → A → List X} {s m : S} {a : A} {rest : List A} (hm : M.step s a = some m) :
    M.outputs out s (a :: rest) = out s a ++ M.outputs out m rest := by
  rw [outputs, hm]
  rfl

/-- What came out and what is in the queue went in, in this order. -/
theorem outputs_of_queue {held : S → List X} {out put : S → A → List X} {I : S → Prop}
    (hinv : ∀ s a s', I s → M.step s a = some s' → I s')
    (hstep : ∀ s a s', I s → M.step s a = some s' → out s a ++ held s' = held s ++ put s a)
    {s s' : S} {as : List A} (hs : I s) (hrun : M.run s as = some s') :
    M.outputs out s as ++ held s' = held s ++ M.outputs put s as := by
  induction as generalizing s with
  | nil =>
    obtain rfl : s = s' := by simpa using hrun
    rw [outputs_nil, outputs_nil, List.nil_append, List.append_nil]
  | cons a rest ih =>
    obtain ⟨m, hm, hrest⟩ := M.run_cons_eq_some.mp hrun
    rw [M.outputs_cons hm, M.outputs_cons hm, List.append_assoc, ih (hinv s a m hs hm) hrest,
      ← List.append_assoc, hstep s a m hs hm, List.append_assoc]

/-- Steps that put out related lists make runs that do. -/
theorem outputs_related {R : X → Y → Prop} {out : S → A → List X} {out' : S → A → List Y} {I : S → Prop}
    (hinv : ∀ s a s', I s → M.step s a = some s' → I s')
    (hstep : ∀ s a, I s → List.Forall₂ R (out s a) (out' s a))
    {s s' : S} {as : List A} (hs : I s) (hrun : M.run s as = some s') :
    List.Forall₂ R (M.outputs out s as) (M.outputs out' s as) := by
  induction as generalizing s with
  | nil => exact .nil
  | cons a rest ih =>
    obtain ⟨m, hm, hrest⟩ := M.run_cons_eq_some.mp hrun
    rw [M.outputs_cons hm, M.outputs_cons hm]
    exact List.rel_append (hstep s a hs) (ih (hinv s a m hs hm) hrest)

theorem outputs_flatten {out : S → A → List (List X)} {s s' : S} {as : List A} (hrun : M.run s as = some s') :
    M.outputs (fun s a => (out s a).flatten) s as = (M.outputs out s as).flatten := by
  induction as generalizing s with
  | nil => rfl
  | cons a rest ih =>
    obtain ⟨m, hm, hrest⟩ := M.run_cons_eq_some.mp hrun
    rw [M.outputs_cons hm, M.outputs_cons hm, List.flatten_append, ih hrest]

/-- Certain steps put out one thing each, and no others any. -/
theorem length_outputs {out : S → A → List X} {p : A → Bool}
    (hstep : ∀ s a s', M.step s a = some s' → (out s a).length = if p a then 1 else 0)
    {s s' : S} {as : List A} (hrun : M.run s as = some s') : (M.outputs out s as).length = as.countP p := by
  induction as generalizing s with
  | nil => rfl
  | cons a rest ih =>
    obtain ⟨m, hm, hrest⟩ := M.run_cons_eq_some.mp hrun
    rw [M.outputs_cons hm, List.length_append, List.countP_cons, hstep s a m hm, ih hrest, Nat.add_comm]

/-- What one more step puts out is put out last. -/
theorem outputs_concat {out : S → A → List X} {s s' : S} {as : List A} (hrun : M.run s as = some s') (a : A) :
    M.outputs out s (as ++ [a]) = M.outputs out s as ++ out s' a := by
  induction as generalizing s with
  | nil =>
    obtain rfl : s = s' := by simpa using hrun
    rw [List.nil_append, outputs_nil, List.nil_append, outputs]
    cases M.step s a with
    | none => exact List.append_nil _
    | some m => exact List.append_nil _
  | cons b rest ih =>
    obtain ⟨m, hm, hrest⟩ := M.run_cons_eq_some.mp hrun
    rw [List.cons_append, M.outputs_cons hm, M.outputs_cons hm, ih hrest, List.append_assoc]

/-- What came out in a place came out before, or is what the last step puts out. -/
theorem output_concat {out : S → A → List X} {s s' : S} {as : List A} {a : A} {x y : X} {i : Nat}
    (hrun : M.run s as = some s') (hout : out s' a = [x]) (hy : (M.outputs out s (as ++ [a]))[i]? = some y) :
    (M.outputs out s as)[i]? = some y ∨ i = (M.outputs out s as).length ∧ y = x := by
  rw [M.outputs_concat hrun, hout] at hy
  rcases Nat.lt_or_ge i (M.outputs out s as).length with hlt | hge
  · rw [List.getElem?_append_left hlt] at hy
    exact .inl hy
  · rw [List.getElem?_append_right hge, List.getElem?_singleton] at hy
    split at hy
    · cases hy
      exact .inr ⟨by omega, rfl⟩
    · cases hy

/-- Where certain steps put out one thing each, what came out in which place came out at which of these steps. -/
theorem step_of_output {out : S → A → List X} {p : A → Bool}
    (hstep : ∀ s a s', M.step s a = some s' → (out s a).length = if p a then 1 else 0)
    {s s' : S} {as : List A} (hrun : M.run s as = some s') {i : Nat} {x : X}
    (hx : (M.outputs out s as)[i]? = some x) : ∃ before m a after, as = before ++ a :: after ∧
      before.countP p = i ∧ p a = true ∧ M.run s before = some m ∧ out m a = [x] := by
  induction as generalizing s i with
  | nil => cases hx
  | cons a rest ih =>
    obtain ⟨m, hm, hrest⟩ := M.run_cons_eq_some.mp hrun
    rw [M.outputs_cons hm] at hx
    have hone := hstep s a m hm
    have hlater : ∀ j, i = j + (out s a).length → ∃ before m a' after, a :: rest = before ++ a' :: after ∧
        before.countP p = i ∧ p a' = true ∧ M.run s before = some m ∧ out m a' = [x] := by
      intro j hj
      rw [hj, Nat.add_comm, List.getElem?_append_right (Nat.le_add_right _ _), Nat.add_sub_cancel_left] at hx
      obtain ⟨before, n, b, after, has, hcount, hb, hbefore, hout⟩ := ih hrest hx
      refine ⟨a :: before, n, b, after, by rw [has]; rfl, ?_, hb, M.run_cons_eq_some.mpr ⟨m, hm, hbefore⟩, hout⟩
      rw [List.countP_cons, hcount, hj, hone]
    cases hp : p a with
    | false => exact hlater i (by rw [hone, hp]; rfl)
    | true =>
      rw [hp, if_pos rfl] at hone
      cases i with
      | zero =>
        obtain ⟨y, hy⟩ := List.length_eq_one_iff.mp hone
        rw [hy] at hx
        cases hx
        exact ⟨[], s, a, rest, rfl, rfl, hp, rfl, hy⟩
      | succ i => exact hlater i (by rw [hone])

end Hopr.Library.Machine
