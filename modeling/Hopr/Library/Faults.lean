import Hopr.Library.Programs

/-! Programs whose calls may fail.

A fault bit is spent on each call a program makes of its backend. A plan lists
the calls the program makes while none fails: calls that keep what is stored,
calls that take something away, and tolerated calls, whose failure the program
goes on after. It ends in a rejection if the program gives up by itself. `fate`
says where a plan ends under given faults and whether something was taken before;
`Fares` that a program ends where its plan does, with what holds there.

`R taken t` is what holds in the state a failure leaves behind; it is carried
along the program by the rules for a sequence (`fares_bind`), for a single call
(`fares_keep`, `fares_take`, `fares_tolerated`) and for a program that runs on a
part of the state (`fares_lift`). -/
namespace Hopr.Library

/-- Whether each of the next calls fails. -/
abbrev Faults := Nat → Bool

/-- The faults of the calls after the next. -/
def Faults.tail (f : Faults) : Faults := fun n => f (n + 1)

/-- The faults after `n` calls. -/
def Faults.drop (f : Faults) (n : Nat) : Faults := fun k => f (k + n)

/-- None of the next `n` calls fails. -/
def Faults.Clear (f : Faults) (n : Nat) : Prop := ∀ k < n, f k = false

/-- The first call to fail is that after `n` others. -/
def Faults.FirstAt (f : Faults) (n : Nat) : Prop := f n = true ∧ f.Clear n

instance (f : Faults) (n : Nat) : Decidable (f.FirstAt n) :=
  inferInstanceAs (Decidable (f n = true ∧ ∀ k < n, f k = false))

section Faults
variable {f : Faults} {m n : Nat}

theorem Faults.clear_zero (f : Faults) : f.Clear 0 := fun _ hk => absurd hk (Nat.not_lt_zero _)

theorem Faults.clear_succ : f.Clear (n + 1) ↔ f 0 = false ∧ f.tail.Clear n := by
  apply Iff.intro
  · intro h
    exact ⟨h 0 (Nat.succ_pos n), fun k hk => h (k + 1) (Nat.succ_lt_succ hk)⟩
  · intro ⟨h, htail⟩ k hk
    cases k with
    | zero => exact h
    | succ k => exact htail k (Nat.lt_of_succ_lt_succ hk)

theorem Faults.firstAt_succ : f.FirstAt (n + 1) ↔ f 0 = false ∧ f.tail.FirstAt n := by
  unfold FirstAt
  rw [clear_succ]
  exact and_left_comm

theorem Faults.drop_drop (f : Faults) (m n : Nat) : (f.drop m).drop n = f.drop (m + n) := by
  funext k
  show f (k + n + m) = f (k + (m + n))
  congr 1
  omega

theorem Faults.Clear.append (h : f.Clear m) (h' : (f.drop m).Clear n) : f.Clear (m + n) := by
  intro k hk
  by_cases hkm : k < m
  · exact h k hkm
  · have hrest := h' (k - m) (by omega)
    rwa [drop, Nat.sub_add_cancel (Nat.le_of_not_lt hkm)] at hrest

theorem Faults.FirstAt.append (h : f.Clear m) (h' : (f.drop m).FirstAt n) : f.FirstAt (m + n) := by
  refine ⟨?_, h.append h'.2⟩
  rw [Nat.add_comm]
  exact h'.1

/-- Calls before the first that fails do not fail. -/
theorem Faults.FirstAt.split (h : f.FirstAt (m + n)) : f.Clear m ∧ (f.drop m).FirstAt n := by
  refine ⟨fun k hk => h.2 k (by omega), ?_, fun k hk => h.2 (k + m) (by omega)⟩
  rw [drop, Nat.add_comm]
  exact h.1

theorem Faults.FirstAt.eq (h : f.FirstAt m) (h' : f.FirstAt n) : m = n := by
  apply Nat.le_antisymm
  · apply Nat.le_of_not_lt
    intro hlt
    exact Bool.false_ne_true ((h.2 n hlt).symm.trans h'.1)
  · apply Nat.le_of_not_lt
    intro hlt
    exact Bool.false_ne_true ((h'.2 m hlt).symm.trans h.1)

theorem Faults.clear_or_firstAt (f : Faults) (n : Nat) : f.Clear n ∨ ∃ i < n, f.FirstAt i := by
  induction n with
  | zero => exact Or.inl f.clear_zero
  | succ n ih =>
    obtain hclear | ⟨i, hi, hfirst⟩ := ih
    · cases hn : f n with
      | true => exact Or.inr ⟨n, Nat.lt_succ_self n, hn, hclear⟩
      | false =>
        left
        intro k hk
        obtain hlt | rfl := Nat.lt_succ_iff_lt_or_eq.mp hk
        · exact hclear k hlt
        · exact hn
    · exact Or.inr ⟨i, Nat.lt_succ_of_lt hi, hfirst⟩

theorem Faults.FirstAt.not_clear (h : f.FirstAt m) (h' : f.Clear n) (hlt : m < n) : False :=
  Bool.false_ne_true ((h' m hlt).symm.trans h.1)

end Faults

class Faultable (T : Type) where
  faults : T → Faults

open Faultable

inductive CallKind where
  | keep
  | take
  | tolerated
  | reject
deriving DecidableEq

inductive Fate where
  | failed (taken : Bool)
  | done (taken : Bool) (rest : Faults)

/-- A failure after something was taken. -/
def Fate.lossy : Fate → Bool
  | failed taken => taken
  | done _ _ => false

def fate : List CallKind → Bool → Faults → Fate
  | [], taken, f => .done taken f
  | .keep :: plan, taken, f => if f 0 then .failed taken else fate plan taken f.tail
  | .take :: plan, taken, f => if f 0 then .failed taken else fate plan true f.tail
  | .tolerated :: plan, taken, f => fate plan taken f.tail
  | .reject :: _, taken, _ => .failed taken

theorem fate_append (p q : List CallKind) (taken : Bool) (f : Faults) : fate (p ++ q) taken f =
    match fate p taken f with
    | .failed taken => .failed taken
    | .done taken f => fate q taken f := by
  induction p generalizing taken f with
  | nil => rfl
  | cons c p ih =>
    cases c with
    | keep =>
      simp only [List.cons_append, fate]
      split
      · rfl
      · exact ih taken f.tail
    | take =>
      simp only [List.cons_append, fate]
      split
      · rfl
      · exact ih true f.tail
    | tolerated => exact ih taken f.tail
    | reject => rfl

/-- The program ends where its plan does: in a failure with `R`, or in a result with `Q`. -/
def Fares {T ε α : Type} [Faultable T] (R : Bool → T → Prop) (m : EStateM ε T α) (plan : List CallKind)
    (taken : Bool) (t : T) (Q : Bool → α → T → Prop) : Prop :=
  match fate plan taken (faults t) with
  | .failed taken' => ∃ e t', m.run t = .error e t' ∧ R taken' t'
  | .done taken' f => ∃ a t', m.run t = .ok a t' ∧ faults t' = f ∧ Q taken' a t'

section Rules
variable {T U ε δ α β : Type} [Faultable T] [Faultable U] {R : Bool → T → Prop}
  {m : EStateM ε T α} {plan : List CallKind} {taken : Bool} {t : T} {Q : Bool → α → T → Prop}

theorem Fares.failed {b : Bool} (h : Fares R m plan taken t Q)
    (hfate : fate plan taken (faults t) = .failed b) : ∃ e t', m.run t = .error e t' ∧ R b t' := by
  unfold Fares at h
  rwa [hfate] at h

theorem Fares.done {b : Bool} {f : Faults} (h : Fares R m plan taken t Q)
    (hfate : fate plan taken (faults t) = .done b f) :
    ∃ a t', m.run t = .ok a t' ∧ faults t' = f ∧ Q b a t' := by
  unfold Fares at h
  rwa [hfate] at h

theorem fares_pure {a : α} (h : Q taken a t) : Fares R (pure a : EStateM ε T α) [] taken t Q :=
  ⟨a, t, rfl, rfl, h⟩

theorem fares_throw {e : ε} (h : R taken t) : Fares R (throw e : EStateM ε T α) [.reject] taken t Q :=
  ⟨e, t, rfl, h⟩

theorem fares_mono {Q' : Bool → α → T → Prop} (h : Fares R m plan taken t Q)
    (hQ : ∀ b a t', Q b a t' → Q' b a t') : Fares R m plan taken t Q' := by
  unfold Fares at h ⊢
  split at h
  · exact h
  · obtain ⟨a, t', hrun, hfaults, hq⟩ := h
    exact ⟨a, t', hrun, hfaults, hQ _ a t' hq⟩

/-- A sequence follows the plan of its first part and then that of its second. -/
theorem fares_bind {k : α → EStateM ε T β} {p q : List CallKind} {Q : Bool → β → T → Prop}
    (h : Fares R m p taken t fun b a t' => Fares R (k a) q b t' Q) :
    Fares R (m >>= k) (p ++ q) taken t Q := by
  unfold Fares at h ⊢
  rw [fate_append]
  cases hfate : fate p taken (faults t) with
  | failed b =>
    rw [hfate] at h
    obtain ⟨e, t', hrun, hR⟩ := h
    refine ⟨e, t', ?_, hR⟩
    simp only [EStateM.run_bind, hrun]
  | done b f =>
    rw [hfate] at h
    obtain ⟨a, t', hrun, hfaults, h⟩ := h
    simp only [EStateM.run_bind, hrun]
    rw [hfaults] at h
    exact h

/-- A sequence whose last part makes no call. -/
theorem fares_return {k : α → EStateM ε T β} {Q : Bool → β → T → Prop}
    (h : Fares R m plan taken t fun b a t' => Fares R (k a) [] b t' Q) :
    Fares R (m >>= k) plan taken t Q := by
  have hbind := fares_bind h
  rwa [List.append_nil] at hbind

/-- The rest of a sequence whose first part makes no call. -/
theorem fares_then {k : α → EStateM ε T β} {q : List CallKind} {Q : Bool → β → T → Prop}
    (h : Fares R m [] taken t fun b a t' => Fares R (k a) q b t' Q) :
    Fares R (m >>= k) q taken t Q := fares_bind h

theorem fares_get {Q : Bool → T → T → Prop} (h : Q taken t t) :
    Fares R (get : EStateM ε T T) [] taken t Q := ⟨t, t, rfl, rfl, h⟩

theorem fares_modify {g : T → T} {Q : Bool → Unit → T → Prop} (hfaults : faults (g t) = faults t)
    (h : Q taken () (g t)) : Fares R (modify g : EStateM ε T Unit) [] taken t Q :=
  ⟨(), g t, rfl, hfaults, h⟩

theorem fares_keep (hfail : faults t 0 = true → ∃ e t', m.run t = .error e t' ∧ R taken t')
    (hok : faults t 0 = false →
      ∃ a t', m.run t = .ok a t' ∧ faults t' = (faults t).tail ∧ Q taken a t') :
    Fares R m [.keep] taken t Q := by
  unfold Fares
  cases hfault : faults t 0 with
  | true => simpa only [fate, hfault, if_true] using hfail hfault
  | false => simpa only [fate, hfault, Bool.false_eq_true, if_false] using hok hfault

theorem fares_take (hfail : faults t 0 = true → ∃ e t', m.run t = .error e t' ∧ R taken t')
    (hok : faults t 0 = false →
      ∃ a t', m.run t = .ok a t' ∧ faults t' = (faults t).tail ∧ Q true a t') :
    Fares R m [.take] taken t Q := by
  unfold Fares
  cases hfault : faults t 0 with
  | true => simpa only [fate, hfault, if_true] using hfail hfault
  | false => simpa only [fate, hfault, Bool.false_eq_true, if_false] using hok hfault

theorem fares_tolerated
    (hok : ∃ a t', m.run t = .ok a t' ∧ faults t' = (faults t).tail ∧ Q taken a t') :
    Fares R m [.tolerated] taken t Q := hok

/-- A program that runs on a part of the state fares as it does there. -/
theorem fares_lift (view : T → U) (put : U → T) (g : ε → δ) (k : α → U → β) {lift : EStateM δ T β}
    {m : EStateM ε U α} {R' : Bool → U → Prop} {Q' : Bool → α → U → Prop} {Q : Bool → β → T → Prop}
    (hok : ∀ a u, m.run (view t) = .ok a u → lift.run t = .ok (k a u) (put u))
    (herror : ∀ e u, m.run (view t) = .error e u → lift.run t = .error (g e) (put u))
    (hview : faults (view t) = faults t) (hput : ∀ u, faults (put u) = faults u)
    (h : Fares R' m plan taken (view t) Q') (hR : ∀ b u, R' b u → R b (put u))
    (hQ : ∀ b a u, Q' b a u → Q b (k a u) (put u)) : Fares R lift plan taken t Q := by
  unfold Fares at h ⊢
  rw [hview] at h
  split at h
  · obtain ⟨e, u, hrun, hu⟩ := h
    exact ⟨g e, put u, herror e u hrun, hR _ u hu⟩
  · obtain ⟨a, u, hrun, hfaults, hu⟩ := h
    exact ⟨k a u, put u, hok a u hrun, (hput u).trans hfaults, hQ _ a u hu⟩

end Rules

end Hopr.Library
