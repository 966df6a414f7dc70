import Mathlib.Data.List.Basic
import Mathlib.Algebra.BigOperators.Group.List.Basic
import Mathlib.Algebra.GroupWithZero.Nat

/-! Amounts of wxHOPR.

A `HoprBalance` is a `U256` whose arithmetic saturates: an addition stops at the
largest amount and a subtraction at zero. The lemmas read every operation off
the underlying number (`amount_add`, `amount_sub`, `amount_sum`), which is all
that the accounting proofs use. -/
namespace Hopr.TicketManager

/-- An amount of wxHOPR, at most `U256::MAX`. -/
structure HoprBalance where
  amount : Nat
  le_max : amount ≤ 2 ^ 256 - 1
deriving DecidableEq

namespace HoprBalance

/-- The largest amount. -/
def MAX : Nat := 2 ^ 256 - 1

/-- The amount closest to `n`. -/
def ofNat (n : Nat) : HoprBalance := ⟨min n MAX, Nat.min_le_right ..⟩

instance : Zero HoprBalance := ⟨ofNat 0⟩
instance : Add HoprBalance := ⟨fun a b => ofNat (a.amount + b.amount)⟩
instance : Sub HoprBalance := ⟨fun a b => ofNat (a.amount - b.amount)⟩
instance : LE HoprBalance := ⟨fun a b => a.amount ≤ b.amount⟩
instance : LT HoprBalance := ⟨fun a b => a.amount < b.amount⟩
instance (a b : HoprBalance) : Decidable (a ≤ b) := inferInstanceAs (Decidable (a.amount ≤ b.amount))
instance (a b : HoprBalance) : Decidable (a < b) := inferInstanceAs (Decidable (a.amount < b.amount))

/-- The sum over an iterator. -/
def sum (l : List HoprBalance) : HoprBalance := l.foldl (· + ·) 0

theorem amount_le (a : HoprBalance) : a.amount ≤ MAX := a.le_max

@[ext] theorem ext {a b : HoprBalance} (h : a.amount = b.amount) : a = b := by
  cases a; cases b; cases h; rfl

theorem lt_iff {a b : HoprBalance} : a < b ↔ a.amount < b.amount := Iff.rfl

@[simp] theorem amount_ofNat (n : Nat) : (ofNat n).amount = min n MAX := rfl
@[simp] theorem amount_zero : (0 : HoprBalance).amount = 0 := rfl

@[simp] theorem amount_add (a b : HoprBalance) : (a + b).amount = min (a.amount + b.amount) MAX := rfl

@[simp] theorem amount_sub (a b : HoprBalance) : (a - b).amount = a.amount - b.amount := by
  have := a.amount_le
  show min (a.amount - b.amount) MAX = a.amount - b.amount
  omega

theorem add_zero (a : HoprBalance) : a + 0 = a := by
  have := a.amount_le
  ext
  simp only [amount_add, amount_zero]
  omega

theorem amount_foldl_add (l : List HoprBalance) (a : HoprBalance) :
    (l.foldl (· + ·) a).amount = min (a.amount + (l.map amount).sum) MAX := by
  induction l generalizing a with
  | nil =>
    have := a.amount_le
    simp only [List.foldl_nil, List.map_nil, List.sum_nil]
    omega
  | cons b rest ih =>
    simp only [List.foldl_cons, ih, amount_add, List.map_cons, List.sum_cons]
    omega

/-- A sum saturates only at the end: it is the true sum, capped. -/
@[simp] theorem amount_sum (l : List HoprBalance) : (sum l).amount = min (l.map amount).sum MAX := by
  simp only [sum, amount_foldl_add, amount_zero, Nat.zero_add]

theorem add_assoc (a b c : HoprBalance) : a + b + c = a + (b + c) := by
  ext
  simp only [amount_add]
  omega

theorem sub_sub (a b c : HoprBalance) : a - b - c = a - (b + c) := by
  have := a.amount_le
  ext
  simp only [amount_sub, amount_add]
  omega

theorem sub_zero (a : HoprBalance) : a - 0 = a := by
  ext
  rw [amount_sub]
  rfl

theorem sum_cons (a : HoprBalance) (l : List HoprBalance) : sum (a :: l) = a + sum l := by
  ext
  simp only [amount_sum, amount_add, List.map_cons, List.sum_cons]
  omega

end HoprBalance

end Hopr.TicketManager
