import Mathlib.Data.List.Basic

/-! Variable-length numbers.

A number is written seven bits to a byte, the lowest first, and every byte but
the last has its top bit set; a string of bytes is written behind its length.
What was written is read back, and the bytes behind it are left
(`read_write`, `readBytes_writeBytes`). -/
namespace Hopr.Library.Varint

/-- At most `fuel` continuation bytes and the last one. -/
def writeLoop : Nat → Nat → List UInt8
  | 0, n => [UInt8.ofNat n]
  | fuel + 1, n =>
    if n < 128 then [UInt8.ofNat n] else UInt8.ofNat (n % 128 + 128) :: writeLoop fuel (n / 128)

def write (n : Nat) : List UInt8 := writeLoop n n

/-- The number in front, and the bytes behind it. -/
def read : List UInt8 → Option (Nat × List UInt8)
  | [] => none
  | b :: rest =>
    if b.toNat < 128 then some (b.toNat, rest)
    else (read rest).map fun (n, rest) => (b.toNat - 128 + 128 * n, rest)

def writeBytes (bytes : List UInt8) : List UInt8 := write bytes.length ++ bytes

def readBytes (bytes : List UInt8) : Option (List UInt8 × List UInt8) :=
  (read bytes).bind fun (n, rest) =>
    if n ≤ rest.length then some (rest.take n, rest.drop n) else none

theorem read_writeLoop (fuel n : Nat) (rest : List UInt8) (h : n ≤ fuel) :
    read (writeLoop fuel n ++ rest) = some (n, rest) := by
  induction fuel generalizing n with
  | zero =>
    obtain rfl : n = 0 := Nat.le_zero.mp h
    rfl
  | succ fuel ih =>
    unfold writeLoop
    split_ifs with hlast
    · have hbyte : (UInt8.ofNat n).toNat = n := UInt8.toNat_ofNat_of_lt' (by show _ < 256; omega)
      rw [List.singleton_append, read, hbyte, if_pos hlast]
    · have hbyte : (UInt8.ofNat (n % 128 + 128)).toNat = n % 128 + 128 :=
        UInt8.toNat_ofNat_of_lt' (by show _ < 256; omega)
      rw [List.cons_append, read, hbyte, if_neg (by omega), ih (n / 128) (by omega)]
      simp only [Option.map_some, Option.some.injEq, Prod.mk.injEq, and_true]
      omega

theorem read_write (n : Nat) (rest : List UInt8) : read (write n ++ rest) = some (n, rest) :=
  read_writeLoop n n rest (Nat.le_refl n)

theorem readBytes_writeBytes (bytes rest : List UInt8) :
    readBytes (writeBytes bytes ++ rest) = some (bytes, rest) := by
  unfold readBytes writeBytes
  rw [List.append_assoc, read_write, Option.bind_some]
  simp

end Hopr.Library.Varint
