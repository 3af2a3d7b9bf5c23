/-!
# Code points and their digits

An escape writes a code point by its number, in hexadecimal digits. Some code points,
the surrogates, denote a character in pairs only.
-/

namespace GraphqlLiteral

/-!
## Hexadecimal digits

The digits of a Unicode escape: ASCII only, in either case. `digit?` and `push`
are the two steps of a reader that holds its value in a 32-bit word. `IsDigit`
and `value` say what the digits are and what number a row of them writes,
without a bound; `map_toNat_digit?` holds the reader to them.
-/

namespace Hex

/-! ### Reading -/

/-- The value of a hexadecimal digit. Digits of other scripts have none. -/
def digit? (c : Char) : Option UInt32 :=
  if '0' ≤ c ∧ c ≤ '9' then some (c.val - '0'.val)
  else if 'a' ≤ c ∧ c ≤ 'f' then some (c.val - 'a'.val + 10)
  else if 'A' ≤ c ∧ c ≤ 'F' then some (c.val - 'A'.val + 10)
  else none

/-- Appends one digit to a value: the word moves up by four bits, and the digit
fills them. -/
def push (value digit : UInt32) : UInt32 := value <<< 4 ||| digit

/-! ### Numerals -/

/-- The sixteen digits in the order of their values. -/
def numerals : List Char :=
  ['0', '1', '2', '3', '4', '5', '6', '7', '8', '9', 'a', 'b', 'c', 'd', 'e', 'f']

/-- A digit is one of the sixteen; a capital counts as its small letter. -/
def IsDigit (c : Char) : Prop := c.toLower ∈ numerals

instance (c : Char) : Decidable (IsDigit c) := inferInstanceAs (Decidable (_ ∈ _))

/-- The value of a digit is its place among the sixteen. -/
def digitValue (c : Char) : Nat := numerals.idxOf c.toLower

/-- The number that a row of digits writes in base sixteen. -/
def value (digits : List Char) : Nat := digits.foldl (fun v c => 16 * v + digitValue c) 0

@[simp] theorem value_nil : value [] = 0 := rfl

/-- One more digit multiplies the value by sixteen and adds the digit. -/
theorem value_concat (ds : List Char) (c : Char) :
    value (ds ++ [c]) = 16 * value ds + digitValue c := by
  simp [value]

/-! ### The two agree -/

theorem toNat_lt_of_isDigit {c : Char} (h : IsDigit c) : c.toNat < 128 := by
  unfold IsDigit Char.toLower at h
  split at h
  · next hupper =>
    have hle := UInt32.le_iff_toNat_le.1 hupper.2
    show c.val.toNat < 128
    exact Nat.lt_of_le_of_lt hle (by decide)
  · have hall : (numerals.all fun d => decide (d.toNat < 128)) = true := rfl
    exact of_decide_eq_true (List.all_eq_true.1 hall c h)

theorem toNat_lt_of_digit? {c : Char} {d : UInt32} (h : digit? c = some d) : c.toNat < 128 := by
  have hle : c ≤ 'f' := by
    unfold digit? at h
    split at h
    · next hd => exact Char.le_trans hd.2 (by decide)
    · split at h
      · next hd => exact hd.2
      · split at h
        · next hd => exact Char.le_trans hd.2 (by decide)
        · simp at h
  show c.val.toNat < 128
  exact Nat.lt_of_le_of_lt (UInt32.le_iff_toNat_le.1 hle) (by decide)

/-- The reader takes the digits and no other character, each with its value. -/
theorem map_toNat_digit? (c : Char) :
    (digit? c).map UInt32.toNat = if IsDigit c then some (digitValue c) else none := by
  have hascii : ∀ n : Fin 128, (digit? (Char.ofNat n)).map UInt32.toNat =
      if IsDigit (Char.ofNat n) then some (digitValue (Char.ofNat n)) else none := by
    decide +kernel
  by_cases hc : c.toNat < 128
  · have h := hascii ⟨c.toNat, hc⟩
    simpa using h
  · have hnot : ¬ IsDigit c := fun h => hc (toNat_lt_of_isDigit h)
    cases hd : digit? c with
    | none => simp [hnot]
    | some d => exact absurd (toNat_lt_of_digit? hd) hc

end Hex

/-!
## Code points and surrogates

A code point is a 32-bit word. Two bands of it, the leading and the trailing
surrogates, denote no character alone; one of each, in this order, denotes a
character above U+FFFF. `band` sorts a code point, `combine` puts a pair
together, `toChar?` gives the character of a code point that has one.
-/

/-- A code point, as the digits of an escape write it. -/
abbrev CodePoint := UInt32

namespace CodePoint

/-- The largest code point that denotes a character. -/
def maxScalar : CodePoint := 0x10FFFF

/-- The code point is the first half of a surrogate pair. -/
def IsLeading (v : CodePoint) : Prop := 0xD800 ≤ v ∧ v ≤ 0xDBFF

/-- The code point is the second half of a surrogate pair. -/
def IsTrailing (v : CodePoint) : Prop := 0xDC00 ≤ v ∧ v ≤ 0xDFFF

instance (v : CodePoint) : Decidable v.IsLeading :=
  inferInstanceAs (Decidable (_ ∧ _))

instance (v : CodePoint) : Decidable v.IsTrailing :=
  inferInstanceAs (Decidable (_ ∧ _))

/-- What part a code point plays in a text. -/
inductive Band where
  /-- Outside the surrogates, and so complete by itself. Words above
  `maxScalar` fall here too; they have no character. -/
  | scalar
  /-- Wants a trailing surrogate right behind it. -/
  | leading
  /-- Wants a leading surrogate right before it. -/
  | trailing
  deriving DecidableEq, Repr

/-- The band of a code point. -/
def band (v : CodePoint) : Band :=
  if v.IsLeading then .leading
  else if v.IsTrailing then .trailing
  else .scalar

/-- The code point that a surrogate pair denotes: ten bits from either half,
counted from U+10000. -/
def combine (lead trail : CodePoint) : CodePoint :=
  0x10000 + (lead - 0xD800) * 0x400 + (trail - 0xDC00)

/-- The character of a code point, if it has one. -/
def toChar? (v : CodePoint) : Option Char :=
  if h : v.isValidChar then some ⟨v, h⟩ else none

theorem band_eq_leading_iff {v : CodePoint} : v.band = .leading ↔ v.IsLeading := by
  by_cases h : v.IsLeading <;> by_cases h' : v.IsTrailing <;> simp [band, h, h']

theorem not_isTrailing_of_isLeading {v : CodePoint} (h : v.IsLeading) : ¬ v.IsTrailing :=
  fun h' => absurd (UInt32.le_trans h'.1 h.2) (by decide)

theorem band_eq_trailing_iff {v : CodePoint} : v.band = .trailing ↔ v.IsTrailing := by
  by_cases h : v.IsLeading
  · simp [band, h, not_isTrailing_of_isLeading h]
  · by_cases h' : v.IsTrailing <;> simp [band, h, h']

end CodePoint

end GraphqlLiteral
