import GraphqlLiteral.Proofs.Body.Division
import Mathlib

/-!
# A body is the row of its numbers

How a number is spelled does not matter to `Body.decode`. A body that spells a
row of numbers has exactly the text that pairing gives for the row, and none
when pairing fails (`chars?_flatten_of_written`). On a row of 16-bit units
pairing is the inverse of writing characters in such units
(`paired_eq_some_iff`).

Both proofs go along the row the way pairing does, one number or one pair at a
time: `pairing_induction`.
-/

namespace GraphqlLiteral

namespace CodePoint

/-! ## The bands of a number -/

theorem isLead_iff {v : Nat} : isLead v = true ↔ 0xD800 ≤ v ∧ v ≤ 0xDBFF := by
  simp [isLead]

theorem isTrail_iff {v : Nat} : isTrail v = true ↔ 0xDC00 ≤ v ∧ v ≤ 0xDFFF := by
  simp [isTrail]

theorem isLead_toNat {v : CodePoint} : isLead v.toNat = true ↔ v.IsLeading := by
  rw [isLead_iff, isLeading_iff_toNat]

theorem isTrail_toNat {v : CodePoint} : isTrail v.toNat = true ↔ v.IsTrailing := by
  rw [isTrail_iff, isTrailing_iff_toNat]

theorem isLead_char (c : Char) : isLead c.toNat = false :=
  Bool.eq_false_iff.2 fun h => not_isLeading_val c (isLead_toNat.1 h)

theorem isTrail_char (c : Char) : isTrail c.toNat = false :=
  Bool.eq_false_iff.2 fun h => not_isTrailing_val c (isTrail_toNat.1 h)

theorem isTrail_of_isLead {v : Nat} (h : isLead v = true) : isTrail v = false := by
  rw [isLead_iff] at h
  rw [Bool.eq_false_iff, Ne, isTrail_iff]
  omega

/-! ## Pairing, one step at a time -/

theorem paired_cons_scalar {v : Nat} (hl : isLead v = false) (ht : isTrail v = false)
    (vs : List Nat) : paired (v :: vs) = (paired vs).map (Char.ofNat v :: ·) := by
  cases vs with
  | nil => simp [paired, hl, ht]
  | cons w vs => simp [paired, hl, ht]

theorem paired_cons_trailing {v : Nat} (ht : isTrail v = true) (vs : List Nat) :
    paired (v :: vs) = none := by
  have hl : isLead v = false :=
    Bool.eq_false_iff.2 fun hl => absurd ht (by simp [isTrail_of_isLead hl])
  cases vs with
  | nil => simp [paired, ht]
  | cons w vs => simp [paired, hl, ht]

theorem paired_cons_pair {v w : Nat} (hl : isLead v = true) (ht : isTrail w = true)
    (vs : List Nat) : paired (v :: w :: vs) = (paired vs).map (pairChar v w :: ·) := by
  simp [paired, hl, ht]

/-- A leading surrogate at the end or in front of anything but its partner. -/
theorem paired_cons_leading {v : Nat} {vs : List Nat} (hl : isLead v = true)
    (hvs : ∀ w ∈ vs.head?, isTrail w = false) : paired (v :: vs) = none := by
  cases vs with
  | nil => simp [paired, hl]
  | cons w vs =>
    have ht : isTrail w = false := hvs w rfl
    simp [paired, hl, ht]

/-- To go along a row of numbers as pairing does: a character alone, a pair, or
one of the two ways to fail. -/
@[elab_as_elim]
theorem pairing_induction {motive : List Nat → Prop} (nil : motive [])
    (scalar : ∀ v vs, isLead v = false → isTrail v = false → motive vs → motive (v :: vs))
    (trailing : ∀ v vs, isTrail v = true → motive (v :: vs))
    (pair : ∀ v w vs, isLead v = true → isTrail w = true → motive vs → motive (v :: w :: vs))
    (leading : ∀ v vs, isLead v = true → (∀ w ∈ vs.head?, isTrail w = false) →
      motive (v :: vs)) (vs : List Nat) : motive vs := by
  induction hlen : vs.length using Nat.strong_induction_on generalizing vs with
  | _ n ih =>
    subst hlen
    cases vs with
    | nil => exact nil
    | cons v vs =>
      -- Only a leading surrogate looks at the number behind it.
      cases hl : isLead v with
      | false =>
        cases ht : isTrail v with
        | false => exact scalar v vs hl ht (ih vs.length (by simp) vs rfl)
        | true => exact trailing v vs ht
      | true =>
        cases vs with
        | nil => exact leading v [] hl (by simp)
        | cons w vs =>
          cases ht : isTrail w with
          | false => exact leading v (w :: vs) hl (by simpa using ht)
          | true =>
            have hlt : vs.length < (v :: w :: vs).length :=
              Nat.lt_succ_of_lt (Nat.lt_succ_self _)
            exact pair v w vs hl ht (ih vs.length hlt vs rfl)

/-! ## Spellings -/

namespace Written

/-- However a number outside the surrogates is spelled, the spelling is a piece. -/
theorem valid {v : Nat} {w : List Char} (h : Written v w) (hl : isLead v = false)
    (ht : isTrail v = false) : Piece.Valid ⟨w, Char.ofNat v⟩ := by
  cases h with
  | plain hc =>
    rw [Char.ofNat_toNat]
    exact .plain hc
  | simple hmem =>
    rw [Char.ofNat_toNat]
    exact .simple hmem
  | @unicode u w hu =>
    have hl' : ¬ u.value.IsLeading := fun h => absurd (isLead_toNat.2 h) (by simp [hl])
    have ht' : ¬ u.value.IsTrailing := fun h => absurd (isTrail_toNat.2 h) (by simp [ht])
    obtain ⟨c, hc⟩ := exists_toChar? hu.toNat_value_le hl' ht'
    have hval := toChar?_eq_some_iff.1 hc
    have hnat : Char.ofNat u.value.toNat = c := by
      rw [← hval]
      exact Char.ofNat_toNat c
    rw [hnat]
    exact .scalar hu hval

/-- A surrogate can be spelled by a Unicode escape only. -/
theorem exists_spelled {v : Nat} {w : List Char} (h : Written v w)
    (hs : isLead v = true ∨ isTrail v = true) :
    ∃ (u : UnicodeEscape) (w' : List Char), u.Spelled w' ∧ u.value.toNat = v ∧ w = '\\' :: w' := by
  cases h with
  | @plain c _ =>
    rw [isLead_char, isTrail_char] at hs
    exact absurd hs (by simp)
  | @simple _ meaning _ =>
    rw [isLead_char, isTrail_char] at hs
    exact absurd hs (by simp)
  | unicode hu => exact ⟨_, _, hu, rfl, rfl⟩

/-- Only a trailing surrogate is spelled in a way that looks like one. -/
theorem not_startsWithTrailing {v : Nat} {w : List Char} (h : Written v w)
    (ht : isTrail v = false) (rest : List Char) : ¬ StartsWithTrailing (w ++ rest) := by
  intro ⟨u, w', rest', hw', ht', heq⟩
  cases h with
  | plain hc => exact absurd (List.cons.inj heq).1 hc
  | @simple c _ hmem =>
    -- The spelling of a Unicode escape begins with a `u`, which means nothing by itself.
    obtain ⟨w'', rfl⟩ := hw'.exists_eq_cons
    have hc : c = 'u' := (List.cons.inj (List.cons.inj heq).2).1
    subst hc
    simp [Escape.simpleMeanings] at hmem
  | @unicode u₁ w₁ hw₁ =>
    have hbehind : w₁ ++ rest = w' ++ rest' := (List.cons.inj heq).2
    have hread : Escape.read (w₁ ++ rest) = .ok (.unicode u₁, rest) :=
      Escape.read_eq_ok_iff.2 ⟨w₁, .unicode hw₁, rfl⟩
    rw [hbehind, Escape.read_eq_ok_iff.2 ⟨w', .unicode hw', rfl⟩] at hread
    simp only [Except.ok.injEq, Prod.mk.injEq, Escape.unicode.injEq] at hread
    rw [hread.1] at ht'
    exact absurd (isTrail_toNat.2 ht') (by simp [ht])

end Written

/-! ## 16-bit units -/

theorem toNat_ofNat_of_scalar {v : Nat} (hmax : v ≤ 0x10FFFF) (hl : isLead v = false)
    (ht : isTrail v = false) : (Char.ofNat v).toNat = v := by
  have hl' : ¬ (0xD800 ≤ v ∧ v ≤ 0xDBFF) := fun h => absurd (isLead_iff.2 h) (by simp [hl])
  have ht' : ¬ (0xDC00 ≤ v ∧ v ≤ 0xDFFF) := fun h => absurd (isTrail_iff.2 h) (by simp [ht])
  have hv : v.isValidChar := by
    unfold Nat.isValidChar
    omega
  rw [Char.ofNat, dif_pos hv]
  rfl

theorem toNat_pairChar {v w : Nat} (hl : isLead v = true) (ht : isTrail w = true) :
    (pairChar v w).toNat = 0x10000 + (v - 0xD800) * 0x400 + (w - 0xDC00) := by
  rw [isLead_iff] at hl
  rw [isTrail_iff] at ht
  apply toNat_ofNat_of_scalar
  · omega
  · rw [Bool.eq_false_iff, Ne, isLead_iff]
    omega
  · rw [Bool.eq_false_iff, Ne, isTrail_iff]
    omega

theorem units16_ofNat {v : Nat} (hmax : v ≤ 0xFFFF) (hl : isLead v = false)
    (ht : isTrail v = false) : units16 (Char.ofNat v) = [v] := by
  rw [units16, toNat_ofNat_of_scalar (by omega) hl ht, if_pos (by omega)]

theorem units16_pairChar {v w : Nat} (hl : isLead v = true) (ht : isTrail w = true) :
    units16 (pairChar v w) = [v, w] := by
  have hv := isLead_iff.1 hl
  have hw := isTrail_iff.1 ht
  rw [units16, toNat_pairChar hl ht, if_neg (by omega)]
  simp only [List.cons.injEq, and_true]
  omega

/-- Pairing gives back the characters that were written in units. -/
theorem paired_flatMap_units16 (cs : List Char) : paired (cs.flatMap units16) = some cs := by
  induction cs with
  | nil => rfl
  | cons c cs ih =>
    rw [List.flatMap_cons]
    by_cases hc : c.toNat < 0x10000
    · rw [units16, if_pos hc, List.singleton_append,
        paired_cons_scalar (isLead_char c) (isTrail_char c), ih, Char.ofNat_toNat]
      rfl
    · have hmax : c.toNat ≤ 0x10FFFF := (isValidChar_iff.1 c.valid).1
      have hl : isLead (0xD800 + (c.toNat - 0x10000) / 0x400) = true := by
        rw [isLead_iff]
        omega
      have ht : isTrail (0xDC00 + (c.toNat - 0x10000) % 0x400) = true := by
        rw [isTrail_iff]
        omega
      have hpair : pairChar (0xD800 + (c.toNat - 0x10000) / 0x400)
          (0xDC00 + (c.toNat - 0x10000) % 0x400) = c := by
        rw [← Char.toNat_inj, toNat_pairChar hl ht]
        omega
      rw [units16, if_neg hc, List.cons_append, List.singleton_append,
        paired_cons_pair hl ht, ih, hpair]
      rfl

/-- On 16-bit units pairing undoes the writing of characters in units, and so it
fails exactly on the rows that no text is written as. -/
theorem paired_eq_some_iff {us : List Nat} (hus : ∀ u ∈ us, u ≤ 0xFFFF) (cs : List Char) :
    paired us = some cs ↔ cs.flatMap units16 = us := by
  refine ⟨?_, fun h => h ▸ paired_flatMap_units16 cs⟩
  induction us using pairing_induction generalizing cs with
  | nil =>
    intro h
    obtain rfl : [] = cs := by simpa [paired] using h
    rfl
  | scalar v vs hl ht ih =>
    intro h
    rw [paired_cons_scalar hl ht, Option.map_eq_some_iff] at h
    obtain ⟨cs', hcs', rfl⟩ := h
    obtain ⟨hv, hvs⟩ := List.forall_mem_cons.1 hus
    rw [List.flatMap_cons, ih hvs cs' hcs', units16_ofNat hv hl ht]
    rfl
  | trailing v vs ht =>
    intro h
    rw [paired_cons_trailing ht] at h
    exact absurd h (by simp)
  | pair v w vs hl ht ih =>
    intro h
    rw [paired_cons_pair hl ht, Option.map_eq_some_iff] at h
    obtain ⟨cs', hcs', rfl⟩ := h
    have hvs : ∀ u ∈ vs, u ≤ 0xFFFF := fun u hu => hus u (by simp [hu])
    rw [List.flatMap_cons, ih hvs cs' hcs', units16_pairChar hl ht]
    rfl
  | leading v vs hl hvs =>
    intro h
    rw [paired_cons_leading hl hvs] at h
    exact absurd h (by simp)

end CodePoint

/-! ## Decoding is pairing -/

namespace Body

open CodePoint

/-- A lone trailing surrogate spoils the body. -/
theorem chars?_of_isTrailing {u : UnicodeEscape} {w : List Char} (hw : u.Spelled w)
    (ht : u.value.IsTrailing) (rest : List Char) : chars? ('\\' :: (w ++ rest)) = none := by
  apply chars?_backslash_of_error
  rw [Escape.readMeaning_of_spelled hw, UnicodeEscape.meaning_of_isTrailing ht]

/-- So does a leading surrogate without its partner. -/
theorem chars?_of_isLeading {u : UnicodeEscape} {w rest : List Char} (hw : u.Spelled w)
    (hl : u.value.IsLeading) (hrest : ¬ StartsWithTrailing rest) :
    chars? ('\\' :: (w ++ rest)) = none := by
  apply chars?_backslash_of_error
  rw [Escape.readMeaning_of_spelled hw, UnicodeEscape.meaning_of_not_startsWithTrailing hl hrest]

/-- The characters of a body that spells a row of numbers. -/
theorem chars?_flatten_of_written {vs : List Nat} {ws : List (List Char)}
    (h : List.Forall₂ Written vs ws) : chars? ws.flatten = paired vs := by
  induction vs using pairing_induction generalizing ws with
  | nil =>
    cases h
    exact chars?_nil
  | scalar v vs hl ht ih =>
    obtain ⟨w, ws, hw, hws, rfl⟩ := List.forall₂_cons_left_iff.1 h
    rw [List.flatten_cons, paired_cons_scalar hl ht, ← ih hws]
    exact chars?_append_of_valid (hw.valid hl ht) ws.flatten
  | trailing v vs ht =>
    obtain ⟨w, ws, hw, hws, rfl⟩ := List.forall₂_cons_left_iff.1 h
    obtain ⟨u, w', hu, rfl, rfl⟩ := hw.exists_spelled (.inr ht)
    rw [paired_cons_trailing ht]
    exact chars?_of_isTrailing hu (isTrail_toNat.1 ht) ws.flatten
  | pair v v' vs hl ht ih =>
    obtain ⟨w, ws, hw, hws, rfl⟩ := List.forall₂_cons_left_iff.1 h
    obtain ⟨w', ws, hw', hws', rfl⟩ := List.forall₂_cons_left_iff.1 hws
    obtain ⟨lead, x, hx, rfl, rfl⟩ := hw.exists_spelled (.inl hl)
    obtain ⟨trail, x', hx', rfl, rfl⟩ := hw'.exists_spelled (.inr ht)
    have hpiece : Piece.Valid
        ⟨'\\' :: (x ++ '\\' :: x'), pairChar lead.value.toNat trail.value.toNat⟩ :=
      .pair hx hx' (isLead_toNat.1 hl) (isTrail_toNat.1 ht) (toNat_pairChar hl ht)
    rw [paired_cons_pair hl ht, ← ih hws', ← chars?_append_of_valid hpiece]
    simp
  | leading v vs hl hvs =>
    obtain ⟨w, ws, hw, hws, rfl⟩ := List.forall₂_cons_left_iff.1 h
    obtain ⟨u, w', hu, rfl, rfl⟩ := hw.exists_spelled (.inl hl)
    rw [paired_cons_leading hl hvs]
    apply chars?_of_isLeading hu (isLead_toNat.1 hl)
    -- What comes next is not spelled like a trailing surrogate, in any form.
    cases hws with
    | nil =>
      intro ⟨u', x, rest, _, _, heq⟩
      exact absurd heq.symm (List.cons_ne_nil _ _)
    | @cons v' x vs' ws' hx hws' => exact hx.not_startsWithTrailing (hvs v' rfl) ws'.flatten

/-- A body that spells a row of numbers has the text of the row under pairing,
or no value where pairing fails. All spellings of a row come to the same, and
for a row of 16-bit units that is the text which is written in these units. -/
theorem decode_eq_paired_of_written {vs : List Nat} {ws : List (List Char)}
    (h : List.Forall₂ Written vs ws) :
    (decode (String.ofList ws.flatten)).toOption.map String.toList = paired vs ∧
    (∀ ws', List.Forall₂ Written vs ws' →
      decode (String.ofList ws'.flatten) = decode (String.ofList ws.flatten)) ∧
    ((∀ v ∈ vs, v ≤ 0xFFFF) → ∀ s : String,
      decode (String.ofList ws.flatten) = .ok s ↔ s.toList.flatMap units16 = vs) := by
  have hpaired := chars?_flatten_of_written h
  refine ⟨hpaired, ?_, ?_⟩
  · intro ws' h'
    apply result_ext
    exact (chars?_flatten_of_written h').trans hpaired.symm
  · intro hvs s
    rw [decode_eq_ok_iff_chars?, String.toList_ofList, hpaired, paired_eq_some_iff hvs]

/-- A pair in both forms, a letter and a backslash, each spelled in two ways. -/
theorem decode_two_spellings_of_pair :
    decode (String.ofList [['\\', 'u', 'D', '8', '3', 'C'],
      ['\\', 'u', '{', '0', 'd', 'F', '7', 'a', '}'], ['A'], ['\\', '\\']].flatten) =
        .ok "🍺A\\" ∧
    decode (String.ofList [['\\', 'u', '{', 'd', '8', '3', 'c', '}'],
      ['\\', 'u', 'd', 'f', '7', 'A'], ['\\', 'u', '0', '0', '4', '1'],
      ['\\', 'u', '{', '5', 'c', '}']].flatten) = .ok "🍺A\\" := by
  have hone : List.Forall₂ Written [0xD83C, 0xDF7A, 0x41, 0x5C]
      [['\\', 'u', 'D', '8', '3', 'C'], ['\\', 'u', '{', '0', 'd', 'F', '7', 'a', '}'], ['A'],
        ['\\', '\\']] := by
    refine .cons ?_ (.cons ?_ (.cons ?_ (.cons ?_ .nil)))
    · exact .unicode (u := ⟨.fixed, 0xD83C⟩) (UnicodeEscape.spelled_of_read rfl)
    · exact .unicode (u := ⟨.braced, 0xDF7A⟩) (UnicodeEscape.spelled_of_read rfl)
    · exact .plain (c := 'A') (by decide)
    · exact @Written.simple '\\' '\\' (by simp [Escape.simpleMeanings])
  have htwo : List.Forall₂ Written [0xD83C, 0xDF7A, 0x41, 0x5C]
      [['\\', 'u', '{', 'd', '8', '3', 'c', '}'], ['\\', 'u', 'd', 'f', '7', 'A'],
        ['\\', 'u', '0', '0', '4', '1'], ['\\', 'u', '{', '5', 'c', '}']] := by
    refine .cons ?_ (.cons ?_ (.cons ?_ (.cons ?_ .nil)))
    · exact .unicode (u := ⟨.braced, 0xD83C⟩) (UnicodeEscape.spelled_of_read rfl)
    · exact .unicode (u := ⟨.fixed, 0xDF7A⟩) (UnicodeEscape.spelled_of_read rfl)
    · exact .unicode (u := ⟨.fixed, 0x41⟩) (UnicodeEscape.spelled_of_read rfl)
    · exact .unicode (u := ⟨.braced, 0x5C⟩) (UnicodeEscape.spelled_of_read rfl)
  obtain ⟨-, hsame, hunits⟩ := decode_eq_paired_of_written hone
  have htext := (hunits (by decide) "🍺A\\").2 (by decide)
  exact ⟨htext, (hsame _ htwo).trans htext⟩

end Body

end GraphqlLiteral
