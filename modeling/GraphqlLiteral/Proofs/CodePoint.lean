import GraphqlLiteral.CodePoint
import Mathlib

/-!
# Numbers in a word

The digits and the code points of a 32-bit word as numbers. A word holds the number of
up to eight digits exactly, and the pair arithmetic does not wrap.
-/

namespace GraphqlLiteral

/-!
## Digits in a word

A reader holds a row of digits in 32 bits. As long as seven digits or fewer
came before, the word holds the number that the row writes (`toNat_push`). The
number never falls when the row grows (`value_le_value_append`), which is what
lets a reader stop early, and with `k` more digits a row can reach any number
whose quotient by `16 ^ k` it writes (`exists_append_of_div_eq`). A number in base
sixteen is a row of digits that writes it again (`value_toDigits`).
-/

namespace Hex

/-- The reader takes a digit for its value. -/
theorem digit?_eq_some_iff {c : Char} {d : UInt32} :
    digit? c = some d ↔ IsDigit c ∧ d.toNat = digitValue c := by
  have hmap := map_toNat_digit? c
  by_cases hc : IsDigit c
  · rw [if_pos hc] at hmap
    obtain ⟨e, he, hval⟩ := Option.map_eq_some_iff.1 hmap
    rw [he]
    rw [Option.some.injEq]
    refine ⟨?_, ?_⟩
    · intro hed
      rw [← hed]
      exact ⟨hc, hval⟩
    · intro ⟨_, hd⟩
      rw [← UInt32.toNat_inj, hval, hd]
  · rw [if_neg hc, Option.map_eq_none_iff] at hmap
    simp [hmap, hc]

theorem digit?_eq_none_iff {c : Char} : digit? c = none ↔ ¬ IsDigit c := by
  have hmap := map_toNat_digit? c
  by_cases hc : IsDigit c
  · rw [if_pos hc] at hmap
    obtain ⟨e, he, -⟩ := Option.map_eq_some_iff.1 hmap
    simp [he, hc]
  · rw [if_neg hc, Option.map_eq_none_iff] at hmap
    simp [hmap, hc]

/-- The reader takes every digit. -/
theorem exists_digit? {c : Char} (hc : IsDigit c) : ∃ d, digit? c = some d := by
  cases hd : digit? c with
  | none => exact absurd hc (digit?_eq_none_iff.1 hd)
  | some d => exact ⟨d, rfl⟩

theorem digitValue_lt {c : Char} (hc : IsDigit c) : digitValue c < 16 :=
  List.idxOf_lt_length_of_mem hc

theorem not_isDigit_closingBrace : ¬ IsDigit '}' := by decide

theorem not_isDigit_openingBrace : ¬ IsDigit '{' := by decide

theorem value_append (ds es : List Char) :
    value (ds ++ es) = value ds * 16 ^ es.length + value es := by
  induction es using List.reverseRecOn with
  | nil => simp
  | append_singleton es c ih =>
    rw [← List.append_assoc, value_concat, value_concat, ih, List.length_append, Nat.pow_add]
    simp only [List.length_singleton]
    ring

/-- A longer row never writes a smaller number. -/
theorem value_le_value_append (ds es : List Char) : value ds ≤ value (ds ++ es) := by
  rw [value_append]
  exact Nat.le_add_right_of_le (Nat.le_mul_of_pos_right _ (Nat.pow_pos (by omega)))

theorem value_lt {ds : List Char} (hds : ∀ c ∈ ds, IsDigit c) : value ds < 16 ^ ds.length := by
  induction ds using List.reverseRecOn with
  | nil => simp
  | append_singleton ds c ih =>
    have hfront := ih fun d hd => hds d (by simp [hd])
    have hc := digitValue_lt (hds c (by simp))
    rw [value_concat, List.length_append, Nat.pow_add]
    simp only [List.length_singleton]
    omega

theorem toNat_digit?_lt {c : Char} {d : UInt32} (hd : digit? c = some d) : d.toNat < 16 := by
  obtain ⟨hc, hval⟩ := digit?_eq_some_iff.1 hd
  rw [hval]
  exact digitValue_lt hc

/-- The shift drops no bit of a value of at most 28 bits. -/
theorem toNat_shiftLeft_four {v : UInt32} (hv : v.toNat < 2 ^ 28) :
    (v <<< 4).toNat = 16 * v.toNat := by
  have hwide : v.toNat <<< 4 < 2 ^ 32 := by
    rw [Nat.shiftLeft_eq]
    omega
  rw [UInt32.toNat_shiftLeft]
  show v.toNat <<< 4 % 2 ^ 32 = 16 * v.toNat
  rw [Nat.mod_eq_of_lt hwide, Nat.shiftLeft_eq]
  omega

/-- The shift leaves four free bits, which the digit fills. -/
theorem toNat_push {v d : UInt32} (hv : v.toNat < 2 ^ 28) (hd : d.toNat < 16) :
    (push v d).toNat = 16 * v.toNat + d.toNat := by
  have hshift : (v <<< 4).toNat = v.toNat <<< 4 := by
    rw [toNat_shiftLeft_four hv, Nat.shiftLeft_eq]
    omega
  rw [push, UInt32.toNat_or, hshift, ← Nat.shiftLeft_add_eq_or_of_lt (show d.toNat < 2 ^ 4 from hd),
    Nat.shiftLeft_eq]
  omega

/-- To fill the free bits is to add. -/
theorem push_eq_add {v d : UInt32} (hv : v.toNat < 2 ^ 28) (hd : d.toNat < 16) :
    push v d = v <<< 4 + d := by
  rw [← UInt32.toNat_inj, toNat_push hv hd, UInt32.toNat_add, toNat_shiftLeft_four hv]
  omega

/-- One more digit behind a row that the word already holds. -/
theorem toNat_push_of_toNat {v d : UInt32} {done : List Char} {c : Char}
    (hv : v.toNat = value done) (hsmall : value done < 2 ^ 28) (hd : digit? c = some d) :
    (push v d).toNat = value (done ++ [c]) := by
  have hval := (digit?_eq_some_iff.1 hd).2
  rw [toNat_push (by omega) (toNat_digit?_lt hd), value_concat, hv, hval]

/-! ### Numbers written as digits -/

theorem isDigit_digitChar {d : Nat} (hd : d < 16) : IsDigit d.digitChar := by
  have hall : ∀ i : Fin 16, IsDigit (Nat.digitChar i) := by decide
  exact hall ⟨d, hd⟩

theorem digitValue_digitChar {d : Nat} (hd : d < 16) : digitValue d.digitChar = d := by
  have hall : ∀ i : Fin 16, digitValue (Nat.digitChar i) = i := by decide
  exact hall ⟨d, hd⟩

theorem isDigit_of_mem_toDigits {n : Nat} : ∀ c ∈ Nat.toDigits 16 n, IsDigit c := by
  induction n using Nat.base_induction 16 (by omega) with
  | single d hd =>
    rw [Nat.toDigits_of_lt_base hd]
    simpa using isDigit_digitChar hd
  | digit n d hd hn ih =>
    rw [← Nat.toDigits_append_toDigits (by omega) hn hd, Nat.toDigits_of_lt_base hd]
    simp only [List.forall_mem_append, List.forall_mem_singleton]
    exact ⟨ih, isDigit_digitChar hd⟩

/-- The digits of a number write that number. -/
theorem value_toDigits (n : Nat) : value (Nat.toDigits 16 n) = n := by
  induction n using Nat.base_induction 16 (by omega) with
  | single d hd =>
    rw [Nat.toDigits_of_lt_base hd]
    simpa [value] using digitValue_digitChar hd
  | digit n d hd hn ih =>
    rw [← Nat.toDigits_append_toDigits (by omega) hn hd, Nat.toDigits_of_lt_base hd, value_concat,
      ih, digitValue_digitChar hd]

/-! ### Rows of digits that go on -/

/-- The number of the first digits of a row is a quotient of the number of the
row. -/
theorem value_append_div {ds es : List Char} (hes : ∀ c ∈ es, IsDigit c) :
    value (ds ++ es) / 16 ^ es.length = value ds := by
  rw [value_append, Nat.mul_comm, Nat.mul_add_div (by positivity), Nat.div_eq_of_lt (value_lt hes),
    Nat.add_zero]

/-- Every number that is not too large is written by `k` digits. -/
theorem exists_digits_of_lt {k n : Nat} (hn : n < 16 ^ k) :
    ∃ ds : List Char, ds.length = k ∧ (∀ c ∈ ds, IsDigit c) ∧ value ds = n := by
  induction k generalizing n with
  | zero =>
    obtain rfl : n = 0 := by omega
    exact ⟨[], rfl, by simp, rfl⟩
  | succ k ih =>
    have hlast : n % 16 < 16 := Nat.mod_lt _ (by omega)
    obtain ⟨ds, hlen, hdigits, hvalue⟩ := ih (n := n / 16) (by omega)
    refine ⟨ds ++ [(n % 16).digitChar], by simp [hlen], ?_, ?_⟩
    · rw [List.forall_mem_append, List.forall_mem_singleton]
      exact ⟨hdigits, isDigit_digitChar hlast⟩
    · rw [value_concat, hvalue, digitValue_digitChar hlast]
      omega

/-- A row of digits can be filled up to any number that it is a quotient of. -/
theorem exists_append_of_div_eq {ds : List Char} {k n : Nat} (hn : n / 16 ^ k = value ds) :
    ∃ es : List Char, es.length = k ∧ (∀ c ∈ es, IsDigit c) ∧ value (ds ++ es) = n := by
  obtain ⟨es, hlen, hes, hvalue⟩ := exists_digits_of_lt (Nat.mod_lt n (by positivity : 0 < 16 ^ k))
  refine ⟨es, hlen, hes, ?_⟩
  rw [value_append, hlen, hvalue, ← hn]
  exact Nat.div_add_mod' n (16 ^ k)

end Hex

/-!
## Code points as numbers

The bands and the pair arithmetic without a word around them. A code point that
is no surrogate and not too large has a character (`exists_toChar?`), and the
arithmetic that puts a pair together neither wraps (`exactPair`) nor leaves the
characters above U+FFFF (`exists_toChar?_combine`).
-/

namespace CodePoint

theorem isLeading_iff_toNat {v : CodePoint} :
    v.IsLeading ↔ 0xD800 ≤ v.toNat ∧ v.toNat ≤ 0xDBFF := by
  simp only [IsLeading, UInt32.le_iff_toNat_le]
  exact Iff.rfl

theorem isTrailing_iff_toNat {v : CodePoint} :
    v.IsTrailing ↔ 0xDC00 ≤ v.toNat ∧ v.toNat ≤ 0xDFFF := by
  simp only [IsTrailing, UInt32.le_iff_toNat_le]
  exact Iff.rfl

theorem band_eq_scalar_iff {v : CodePoint} :
    v.band = .scalar ↔ ¬ v.IsLeading ∧ ¬ v.IsTrailing := by
  by_cases hl : v.IsLeading
  · simp [band, hl]
  · by_cases ht : v.IsTrailing <;> simp [band, hl, ht]

/-- A number that is not too large for a code point fits in its word. -/
theorem toNat_ofNat_of_le {n : Nat} (hn : n ≤ 0x10FFFF) : (UInt32.ofNat n).toNat = n :=
  UInt32.toNat_ofNat_of_lt' (Nat.lt_of_le_of_lt hn (by decide))

/-! ### Characters -/

theorem toChar?_eq_some_iff {v : CodePoint} {c : Char} : v.toChar? = some c ↔ c.val = v := by
  unfold toChar?
  split
  · rw [Option.some.injEq, Char.ext_iff, eq_comm]
  · next hv =>
    simp only [reduceCtorEq, false_iff]
    intro hc
    exact hv (hc ▸ c.valid)

/-- The code points with a character are the small ones outside the surrogates. -/
theorem isValidChar_iff {v : CodePoint} :
    v.isValidChar ↔ v.toNat ≤ 0x10FFFF ∧ ¬ v.IsLeading ∧ ¬ v.IsTrailing := by
  rw [isLeading_iff_toNat, isTrailing_iff_toNat]
  unfold UInt32.isValidChar Nat.isValidChar
  omega

theorem exists_toChar? {v : CodePoint} (hmax : v.toNat ≤ 0x10FFFF) (hl : ¬ v.IsLeading)
    (ht : ¬ v.IsTrailing) : ∃ c : Char, v.toChar? = some c := by
  have hv : v.isValidChar := isValidChar_iff.2 ⟨hmax, hl, ht⟩
  exact ⟨⟨v, hv⟩, toChar?_eq_some_iff.2 rfl⟩

theorem not_isLeading_val (c : Char) : ¬ IsLeading c.val := (isValidChar_iff.1 c.valid).2.1

theorem not_isTrailing_val (c : Char) : ¬ IsTrailing c.val := (isValidChar_iff.1 c.valid).2.2

/-! ### Pairs -/

/-- Nothing wraps when the code point of a pair is computed in 32 bits. Each half is
in its band, so that neither difference falls below zero, and every word on the way
holds the exact number. -/
structure ExactPair (lead trail : CodePoint) : Prop where
  isLeading : lead.IsLeading
  isTrailing : trail.IsTrailing
  high : (lead - 0xD800).toNat = lead.toNat - 0xD800
  scaled : ((lead - 0xD800) * 0x400).toNat = (lead.toNat - 0xD800) * 0x400
  raised : (0x10000 + (lead - 0xD800) * 0x400).toNat = 0x10000 + (lead.toNat - 0xD800) * 0x400
  low : (trail - 0xDC00).toNat = trail.toNat - 0xDC00
  /-- The last sum is the code point. -/
  sum : (lead.combine trail).toNat =
    0x10000 + (lead.toNat - 0xD800) * 0x400 + (trail.toNat - 0xDC00)

/-- The pair arithmetic is exact in 32 bits. -/
theorem exactPair {lead trail : CodePoint} (hl : lead.IsLeading) (ht : trail.IsTrailing) :
    ExactPair lead trail := by
  have hlead := isLeading_iff_toNat.1 hl
  have htrail := isTrailing_iff_toNat.1 ht
  have hhigh : (lead - 0xD800).toNat = lead.toNat - 0xD800 := UInt32.toNat_sub_of_le _ _ hl.1
  have hlow : (trail - 0xDC00).toNat = trail.toNat - 0xDC00 := UInt32.toNat_sub_of_le _ _ ht.1
  have hscaled : ((lead - 0xD800) * 0x400).toNat = (lead.toNat - 0xD800) * 0x400 := by
    have hfactor : (0x400 : UInt32).toNat = 0x400 := rfl
    rw [UInt32.toNat_mul, hhigh, hfactor]
    omega
  have hraised : (0x10000 + (lead - 0xD800) * 0x400).toNat =
      0x10000 + (lead.toNat - 0xD800) * 0x400 := by
    have hbase : (0x10000 : UInt32).toNat = 0x10000 := rfl
    rw [UInt32.toNat_add, hscaled, hbase]
    omega
  refine ⟨hl, ht, hhigh, hscaled, hraised, hlow, ?_⟩
  rw [combine, UInt32.toNat_add, hraised, hlow]
  omega

theorem toNat_combine {lead trail : CodePoint} (hl : lead.IsLeading) (ht : trail.IsTrailing) :
    (lead.combine trail).toNat =
      0x10000 + (lead.toNat - 0xD800) * 0x400 + (trail.toNat - 0xDC00) :=
  (exactPair hl ht).sum

/-- A pair denotes a character above U+FFFF. -/
theorem combine_mem_supplementary {lead trail : CodePoint} (hl : lead.IsLeading)
    (ht : trail.IsTrailing) :
    0x10000 ≤ (lead.combine trail).toNat ∧ (lead.combine trail).toNat ≤ 0x10FFFF := by
  have hlead := isLeading_iff_toNat.1 hl
  have htrail := isTrailing_iff_toNat.1 ht
  rw [toNat_combine hl ht]
  omega

theorem exists_toChar?_combine {lead trail : CodePoint} (hl : lead.IsLeading)
    (ht : trail.IsTrailing) : ∃ c : Char, (lead.combine trail).toChar? = some c := by
  obtain ⟨hlow, hhigh⟩ := combine_mem_supplementary hl ht
  apply exists_toChar? hhigh
  · rw [isLeading_iff_toNat]
    omega
  · rw [isTrailing_iff_toNat]
    omega

end CodePoint

end GraphqlLiteral
