import Mathlib

/-! Text, as the standard library of Rust has it.

A text is a sequence of Unicode scalar values. Lengths and positions are counted
in bytes of its UTF-8 encoding; indexing beyond the end and slicing inside of a
character panic, which is `none` here. -/
namespace Hopr.Library

abbrev Text := List Char

namespace Text

/-! ### Whitespace -/

/-- The property `White_Space` of Unicode. -/
def is_whitespace (c : Char) : Bool :=
  [0x20, 0x85, 0xa0, 0x1680, 0x2028, 0x2029, 0x202f, 0x205f, 0x3000].contains c.toNat ||
    (0x9 ≤ c.toNat && c.toNat ≤ 0xd) || (0x2000 ≤ c.toNat && c.toNat ≤ 0x200a)

def trim (s : Text) : Text :=
  ((s.dropWhile is_whitespace).reverse.dropWhile is_whitespace).reverse

theorem not_whitespace_of_isAlphanum {c : Char} (h : c.isAlphanum = true) : is_whitespace c = false := by
  simp only [Char.isAlphanum, Char.isAlpha, Char.isUpper, Char.isLower, Char.isDigit, Bool.or_eq_true,
    decide_eq_true_eq, Bool.and_eq_true, UInt32.le_iff_toNat_le, ge_iff_le, Char.toNat_val] at h
  simp [is_whitespace] at h ⊢
  omega

theorem dropWhile_eq_self {s : Text} (h : ∀ c ∈ s, is_whitespace c = false) :
    s.dropWhile is_whitespace = s := by
  cases s with
  | nil => rfl
  | cons c rest => rw [List.dropWhile_cons_of_neg (by simp [h c])]

theorem trim_eq_self {s : Text} (h : ∀ c ∈ s, is_whitespace c = false) : s.trim = s := by
  unfold trim
  rw [dropWhile_eq_self h, dropWhile_eq_self fun c hc => h c (List.mem_reverse.mp hc), List.reverse_reverse]

/-! ### Splitting -/

/-- Split at the first separator. -/
def split_once (sep : Char) : Text → Option (Text × Text)
  | [] => none
  | c :: rest => if c = sep then some ([], rest) else (split_once sep rest).map fun (a, b) => (c :: a, b)

/-- Split at the last separator. -/
def rsplit_once (sep : Char) (s : Text) : Option (Text × Text) :=
  (split_once sep s.reverse).map fun (b, a) => (a.reverse, b.reverse)

def strip_prefix : Text → Text → Option Text
  | s, [] => some s
  | [], _ :: _ => none
  | c :: s, p :: rest => if p = c then strip_prefix s rest else none

def strip_suffix (s suffix : Text) : Option Text :=
  (Text.strip_prefix s.reverse suffix.reverse).map List.reverse

section Split
variable {sep : Char} {s a b p r : Text}

theorem split_once_append (h : sep ∉ a) : split_once sep (a ++ sep :: b) = some (a, b) := by
  induction a with
  | nil => simp [split_once]
  | cons c rest ih =>
    have hne : c ≠ sep := fun heq => h (heq ▸ List.mem_cons_self)
    simp [split_once, hne, ih fun hrest => h (List.mem_cons_of_mem c hrest)]

theorem rsplit_once_append (h : sep ∉ b) : rsplit_once sep (a ++ sep :: b) = some (a, b) := by
  have hsep : sep ∉ b.reverse := fun hb => h (List.mem_reverse.mp hb)
  simp [rsplit_once, split_once_append hsep]

theorem strip_prefix_eq_some : strip_prefix s p = some r ↔ s = p ++ r := by
  induction p generalizing s with
  | nil => simp [Text.strip_prefix]
  | cons c rest ih =>
    cases s with
    | nil => simp [Text.strip_prefix]
    | cons d s =>
      simp only [Text.strip_prefix]
      split
      · next heq => simp [ih, heq]
      · next hne => simp [Ne.symm hne]

theorem strip_prefix_of_not_mem {c : Char} (h : c ∉ s) : strip_prefix s (c :: p) = none := by
  cases s with
  | nil => rfl
  | cons d rest =>
    have hne : c ≠ d := fun heq => h (heq ▸ List.mem_cons_self)
    simp only [Text.strip_prefix, if_neg hne]

theorem strip_suffix_eq_some : strip_suffix s p = some r ↔ s = r ++ p := by
  simp only [strip_suffix, Option.map_eq_some_iff, strip_prefix_eq_some]
  constructor
  · intro ⟨x, hx, hr⟩
    rw [← List.reverse_reverse s, hx, ← hr]
    simp
  · intro hs
    exact ⟨r.reverse, by simp [hs], by simp⟩

end Split

/-! ### ASCII case -/

def to_ascii_lowercase (s : Text) : Text := s.map Char.toLower

def eq_ignore_ascii_case (s t : Text) : Bool := s.to_ascii_lowercase = t.to_ascii_lowercase

section Case
variable {s t : Text} {c d : Char}

/-- Only letters change their case. -/
theorem toLower_eq_iff (hd : d.isAlpha = false) : c.toLower = d ↔ c = d := by
  constructor
  · intro heq
    have hc : c.isAlpha = false := by
      rw [← heq, Char.isAlpha_toLower_eq_isAlpha] at hd
      exact hd
    have hupper : ¬c.isUpper = true := by
      intro hupper
      simp [Char.isAlpha, hupper] at hc
    exact (Char.toLower_eq_of_not_isUpper hupper).symm.trans heq
  · intro heq
    have hupper : ¬c.isUpper = true := by
      intro hupper
      rw [← heq] at hd
      simp [Char.isAlpha, hupper] at hd
    exact (Char.toLower_eq_of_not_isUpper hupper).trans heq

theorem isAlphanum_toLower (h : c.isAlphanum = true) : c.toLower.isAlphanum = true := by
  by_cases hupper : c.isUpper = true
  · simp [Char.isAlphanum, Char.isAlpha, hupper]
  · rwa [Char.toLower_eq_of_not_isUpper hupper]

theorem eq_ignore_ascii_case_iff :
    s.eq_ignore_ascii_case t = true ↔ s.to_ascii_lowercase = t.to_ascii_lowercase :=
  decide_eq_true_iff

@[simp] theorem lowercase_lowercase : s.to_ascii_lowercase.to_ascii_lowercase = s.to_ascii_lowercase := by
  simp [to_ascii_lowercase]

theorem lowercase_append :
    (s ++ t).to_ascii_lowercase = s.to_ascii_lowercase ++ t.to_ascii_lowercase :=
  List.map_append

theorem getLast?_lowercase (hd : d.isAlpha = false) :
    s.to_ascii_lowercase.getLast? = some d ↔ s.getLast? = some d := by
  simp [to_ascii_lowercase, toLower_eq_iff hd]

end Case

/-! ### Unsigned integers -/

/-- The value of decimal digits below the bound, behind those that made `n`. -/
def parse_digits (bound : Nat) : Nat → Text → Except Text Nat
  | n, [] => .ok n
  | n, c :: rest =>
    if c.isDigit then
      if n * 10 + (c.toNat - '0'.toNat) < bound
      then parse_digits bound (n * 10 + (c.toNat - '0'.toNat)) rest
      else .error "number too large to fit in target type".toList
    else .error "invalid digit found in string".toList

def parse_unsigned (bound : Nat) : Text → Except Text Nat
  | [] => .error "cannot parse integer from empty string".toList
  | ['+'] => .error "invalid digit found in string".toList
  | '+' :: rest => parse_digits bound 0 rest
  | s => parse_digits bound 0 s

def display_unsigned (n : Nat) : Text := Nat.toDigits 10 n

theorem le_ofDigitChars (n : Nat) (s : Text) : n ≤ Nat.ofDigitChars 10 s n := by
  induction s generalizing n with
  | nil => simp
  | cons c rest ih =>
    rw [Nat.ofDigitChars_cons]
    exact Nat.le_trans (by omega) (ih _)

theorem parse_digits_eq {bound n : Nat} {s : Text} (hdigits : ∀ c ∈ s, c.isDigit = true)
    (h : Nat.ofDigitChars 10 s n < bound) : parse_digits bound n s = .ok (Nat.ofDigitChars 10 s n) := by
  induction s generalizing n with
  | nil => simp [parse_digits]
  | cons c rest ih =>
    have hvalue : n * 10 + (c.toNat - '0'.toNat) = 10 * n + (c.toNat - '0'.toNat) := by omega
    rw [Nat.ofDigitChars_cons] at h ⊢
    have hle := le_ofDigitChars (10 * n + (c.toNat - '0'.toNat)) rest
    simp only [parse_digits, hvalue, hdigits c List.mem_cons_self, if_true]
    rw [if_pos (by omega)]
    exact ih (fun d hd => hdigits d (List.mem_cons_of_mem c hd)) h

theorem parse_digits_lt {bound n m : Nat} {s : Text} (hn : n < bound) (h : parse_digits bound n s = .ok m) :
    m < bound := by
  induction s generalizing n with
  | nil =>
    cases h
    exact hn
  | cons c rest ih =>
    simp only [parse_digits] at h
    split at h
    · split at h
      · next hlt => exact ih hlt h
      · cases h
    · cases h

theorem parse_unsigned_lt {bound n : Nat} {s : Text} (hbound : 0 < bound) (h : parse_unsigned bound s = .ok n) :
    n < bound := by
  unfold parse_unsigned at h
  split at h
  · cases h
  · cases h
  · exact parse_digits_lt hbound h
  · exact parse_digits_lt hbound h

theorem isDigit_of_mem_display {n : Nat} {c : Char} (h : c ∈ display_unsigned n) : c.isDigit = true :=
  Nat.isDigit_of_mem_toDigits (by decide) (by decide) h

/-- What is displayed is read back. -/
theorem parse_display_unsigned {bound n : Nat} (h : n < bound) :
    parse_unsigned bound (display_unsigned n) = .ok n := by
  have hread : parse_digits bound 0 (display_unsigned n) = .ok n := by
    have hvalue : Nat.ofDigitChars 10 (display_unsigned n) 0 = n := Nat.ofDigitChars_ten_toDigits
    rw [parse_digits_eq (fun c hc => isDigit_of_mem_display hc) (by rwa [hvalue]), hvalue]
  have hplus : '+' ∉ display_unsigned n := fun hmem => absurd (isDigit_of_mem_display hmem) (by decide)
  unfold parse_unsigned
  split
  · next hnil => exact absurd hnil Nat.toDigits_ne_nil
  · next heq => rw [heq] at hplus; exact absurd List.mem_cons_self hplus
  · next heq => rw [heq] at hplus; exact absurd List.mem_cons_self hplus
  · exact hread

/-! ### UTF-8 -/

/-- The number of bytes. -/
def len (s : Text) : Nat := (s.map Char.utf8Size).sum

def as_bytes (s : Text) : List UInt8 := s.flatMap String.utf8EncodeChar

/-- The text from a position on, unless that is inside of a character or behind the end. -/
def slice_from : Text → Nat → Option Text
  | s, 0 => some s
  | [], _ + 1 => none
  | c :: rest, i + 1 => if c.utf8Size ≤ i + 1 then slice_from rest (i + 1 - c.utf8Size) else none

section Utf8
variable {s t : Text} {c : Char}

@[simp] theorem len_nil : len [] = 0 := rfl
@[simp] theorem len_cons : len (c :: s) = c.utf8Size + len s := List.sum_cons

theorem len_append : len (s ++ t) = len s + len t := by
  simp [len]

theorem utf8Size_of_isAlpha (h : c.isAlpha = true) : c.utf8Size = 1 := by
  rw [Char.utf8Size_eq_one_iff, UInt32.le_iff_toNat_le]
  simp only [Char.isAlpha, Char.isUpper, Char.isLower, Bool.or_eq_true, Bool.and_eq_true, decide_eq_true_eq,
    UInt32.le_iff_toNat_le, ge_iff_le] at h
  simp at h ⊢
  omega

/-- Letters have one byte in both cases. -/
@[simp] theorem len_lowercase : len (to_ascii_lowercase s) = len s := by
  induction s with
  | nil => rfl
  | cons c rest ih =>
    have hsize : c.toLower.utf8Size = c.utf8Size := by
      by_cases halpha : c.isAlpha = true
      · rw [utf8Size_of_isAlpha halpha, utf8Size_of_isAlpha (by rwa [Char.isAlpha_toLower_eq_isAlpha])]
      · have hupper : ¬c.isUpper = true := fun hupper => halpha (by simp [Char.isAlpha, hupper])
        rw [Char.toLower_eq_of_not_isUpper hupper]
    show len (c.toLower :: to_ascii_lowercase rest) = _
    rw [len_cons, len_cons, ih, hsize]

theorem slice_from_append : slice_from (s ++ t) (len s) = some t := by
  induction s with
  | nil => simp [slice_from]
  | cons c rest ih =>
    obtain ⟨n, hn⟩ : ∃ n, len (c :: rest) = n + 1 := ⟨len (c :: rest) - 1, by
      have := c.utf8Size_pos
      simp only [len_cons]
      omega⟩
    have hrest : n + 1 - c.utf8Size = len rest := by
      rw [← hn, len_cons]
      omega
    have hle : c.utf8Size ≤ n + 1 := by
      rw [← hn, len_cons]
      omega
    rw [hn, List.cons_append, slice_from, if_pos hle, hrest]
    exact ih

theorem utf8EncodeChar_ascii (hc : c.toNat ≤ 0x7f) : String.utf8EncodeChar c = [UInt8.ofNat c.toNat] := by
  unfold String.utf8EncodeChar
  exact if_pos hc

/-- Every byte of a character that is not ASCII has its highest bit set. -/
theorem le_of_mem_utf8EncodeChar {b : UInt8} (hb : b ∈ String.utf8EncodeChar c) (hc : 0x7f < c.toNat) :
    0x80 ≤ b.toNat := by
  have hbyte : ∀ n, 0x80 ≤ n → n < 0x100 → 0x80 ≤ (UInt8.ofNat n).toNat := by
    intro n hle hlt
    rw [UInt8.toNat_ofNat']
    omega
  unfold String.utf8EncodeChar at hb
  dsimp only at hb
  rw [if_neg (by exact Nat.not_le.mpr hc)] at hb
  split at hb
  · simp only [List.mem_cons, List.not_mem_nil, or_false] at hb
    obtain rfl | rfl := hb <;> apply hbyte <;> omega
  · split at hb
    · simp only [List.mem_cons, List.not_mem_nil, or_false] at hb
      obtain rfl | rfl | rfl := hb <;> apply hbyte <;> omega
    · simp only [List.mem_cons, List.not_mem_nil, or_false] at hb
      obtain rfl | rfl | rfl | rfl := hb <;> apply hbyte <;> omega

theorem length_as_bytes : (as_bytes s).length = len s := by
  induction s with
  | nil => rfl
  | cons c rest ih =>
    show (String.utf8EncodeChar c ++ as_bytes rest).length = _
    rw [List.length_append, String.length_utf8EncodeChar, ih, len_cons]

theorem as_bytes_append : as_bytes (s ++ t) = as_bytes s ++ as_bytes t := List.flatMap_append

/-- An ASCII byte is a character of its own. -/
theorem of_as_bytes {i : Nat} (hc : c.toNat ≤ 0x7f) (h : (as_bytes s)[i]? = some (UInt8.ofNat c.toNat)) :
    ∃ a b, s = a ++ c :: b ∧ len a = i := by
  have hbyte : (UInt8.ofNat c.toNat).toNat = c.toNat := by
    rw [UInt8.toNat_ofNat']
    omega
  induction s generalizing i with
  | nil => cases h
  | cons d rest ih =>
    replace h : (String.utf8EncodeChar d ++ as_bytes rest)[i]? = some (UInt8.ofNat c.toNat) := h
    by_cases hi : i < d.utf8Size
    · rw [← String.length_utf8EncodeChar] at hi
      rw [List.getElem?_append_left hi] at h
      have hmem := List.mem_of_getElem? h
      have hd : d.toNat ≤ 0x7f := by
        apply Classical.byContradiction
        intro hd
        have := le_of_mem_utf8EncodeChar hmem (Nat.lt_of_not_le hd)
        omega
      rw [utf8EncodeChar_ascii hd] at hi hmem
      have hdc : d = c := by
        have heq := congrArg UInt8.toNat (List.mem_singleton.mp hmem)
        rw [hbyte, UInt8.toNat_ofNat'] at heq
        exact Char.toNat_inj.mp (by omega)
      have hzero : i = 0 := by simpa using hi
      exact ⟨[], rest, by rw [hdc]; rfl, hzero.symm⟩
    · rw [← String.length_utf8EncodeChar] at hi
      rw [List.getElem?_append_right (Nat.le_of_not_lt hi)] at h
      obtain ⟨a, b, hs, hlen⟩ := ih h
      refine ⟨d :: a, b, by rw [hs]; rfl, ?_⟩
      rw [String.length_utf8EncodeChar] at hi hlen
      rw [len_cons, hlen]
      omega

/-- The byte of an ASCII character is where the character is. -/
theorem as_bytes_getElem (hc : c.toNat ≤ 0x7f) :
    (as_bytes (s ++ c :: t))[len s]? = some (UInt8.ofNat c.toNat) := by
  have hcons : as_bytes (c :: t) = UInt8.ofNat c.toNat :: as_bytes t := by
    show String.utf8EncodeChar c ++ as_bytes t = _
    rw [utf8EncodeChar_ascii hc]
    rfl
  rw [as_bytes_append, hcons, ← length_as_bytes, List.getElem?_append_right (Nat.le_refl _), Nat.sub_self]
  rfl

end Utf8

end Text

end Hopr.Library
