import Mathlib.Logic.Basic

/-! Functions that check one thing after the other and fail at the first that is not so.

`Ensures m P R` says what holds of the value if `m` returns one and of the error if it
fails. Whatever follows a check may use that it passed. -/
namespace Hopr.Library
variable {E F A B : Type}

def Ensures (m : Except E A) (P : A → Prop) (R : E → Prop) : Prop :=
  match m with
  | .ok a => P a
  | .error e => R e

variable {m : Except E A} {P : A → Prop} {R : E → Prop}

theorem Ensures.of_ok {a : A} (h : Ensures m P R) (hm : m = .ok a) : P a := by
  subst hm
  exact h

theorem Ensures.of_error {e : E} (h : Ensures m P R) (hm : m = .error e) : R e := by
  subst hm
  exact h

theorem Ensures.imp {P' : A → Prop} {R' : E → Prop} (h : Ensures m P R) (hP : ∀ a, P a → P' a)
    (hR : ∀ e, R e → R' e) : Ensures m P' R' := by
  cases m with
  | ok a => exact hP a h
  | error e => exact hR e h

theorem ensures_bind {k : A → Except E B} {Q : B → Prop} (hm : Ensures m P R)
    (hk : ∀ a, P a → Ensures (k a) Q R) : Ensures (m >>= k) Q R := by
  cases m with
  | ok a => exact hk a hm
  | error e => exact hm

/-- A result whose errors are turned into others. -/
theorem ensures_mapError {m : Except F A} {f : F → E} (hok : ∀ a, m = .ok a → P a)
    (herror : ∀ e, m = .error e → R (f e)) : Ensures (m.mapError f) P R := by
  cases m with
  | ok a => exact hok a rfl
  | error e => exact herror e rfl

/-- A check, and what follows if it passes. -/
theorem ensures_check {c : Prop} [Decidable c] {e : E} {k : A → Except E B} {rest : Except E B} {Q : B → Prop}
    (hfails : c → R e) (hrest : ¬ c → Ensures rest Q R) :
    Ensures (if c then throw e >>= k else rest) Q R := by
  split
  · next h => exact hfails h
  · next h => exact hrest h

/-- A check that is the last. -/
theorem ensures_last {c : Prop} [Decidable c] {e : E} {Q : Unit → Prop} (hfails : c → R e) (hpasses : ¬ c → Q ()) :
    Ensures (if c then throw e else pure ()) Q R := by
  split
  · next h => exact hfails h
  · next h => exact hpasses h

end Hopr.Library
