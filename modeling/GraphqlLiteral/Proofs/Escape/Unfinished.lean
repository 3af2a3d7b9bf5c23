import GraphqlLiteral.Proofs.Body.Pairing
import Mathlib

/-!
# Which escapes can still be finished

A body that ends inside an escape has no value, but a longer body that begins
with it may have one. `Unfinished` tells such an end by the escape that was
meant. `CutOff` lists the same ends by what stands there
(`unfinished_cons_iff_cutOff`): whether a row of digits can still come to a good
end depends on the number that it writes so far.

In one direction, digits that are the beginning of a row write the number of the
row divided by a power of sixteen. In the other, digits can be filled up to any
number that has them for such a quotient.
-/

namespace GraphqlLiteral

/-- The text is the beginning of an escape, its partner counted, and not all of
it. -/
def Unfinished (text : List Char) : Prop :=
  ∃ p : Piece, p.Valid ∧ p.isEscape = true ∧ text <+: p.written ∧ text ≠ p.written

/-- With `more` digits behind it, the number `v` can become a trailing surrogate. -/
def CodePoint.LeadsToTrailing (more v : Nat) : Prop :=
  0xDC00 / 16 ^ more ≤ v ∧ v ≤ 0xDFFF / 16 ^ more

/-- What may stand behind a leading surrogate up to the end of a body that can go
on: the beginning of a trailing one. -/
inductive PartnerCutOff : List Char → Prop where
  | nothing : PartnerCutOff []
  | backslash : PartnerCutOff ['\\']
  /-- A `u` and three digits at most. -/
  | fixed {digits : List Char} :
      digits.length < 4 → (∀ c ∈ digits, Hex.IsDigit c) →
      CodePoint.LeadsToTrailing (4 - digits.length) (Hex.value digits) →
      PartnerCutOff ('\\' :: 'u' :: digits)
  /-- An opening brace and any number of digits. -/
  | braced {digits : List Char} {more : Nat} :
      (∀ c ∈ digits, Hex.IsDigit c) → CodePoint.LeadsToTrailing more (Hex.value digits) →
      PartnerCutOff ('\\' :: 'u' :: '{' :: digits)

/-- What may stand behind a backslash up to the end of a body that can go on. -/
inductive CutOff : List Char → Prop where
  | nothing : CutOff []
  /-- A `u` and three digits at most. Where they write a trailing surrogate when
  filled up with zeros, they do so with whatever digits come, and that is too
  late. -/
  | fixed {digits : List Char} :
      digits.length < 4 → (∀ c ∈ digits, Hex.IsDigit c) →
      ¬ (0xDC00 ≤ Hex.value digits * 16 ^ (4 - digits.length) ∧
        Hex.value digits * 16 ^ (4 - digits.length) ≤ 0xDFFF) →
      CutOff ('u' :: digits)
  /-- An opening brace and digits that do not write too large a number. Even a
  trailing surrogate becomes another number with one more digit. -/
  | braced {digits : List Char} :
      (∀ c ∈ digits, Hex.IsDigit c) → Hex.value digits ≤ 0x10FFFF →
      CutOff ('u' :: '{' :: digits)
  /-- A leading surrogate and the beginning of its partner. -/
  | leading {u : UnicodeEscape} {w rest : List Char} :
      u.Spelled w → u.value.IsLeading → PartnerCutOff rest → CutOff (w ++ rest)

/-! ## Numbers that become trailing surrogates -/

namespace CodePoint

/-- The numbers that lead to a trailing surrogate are its quotients. -/
theorem leadsToTrailing_iff {more v : Nat} :
    LeadsToTrailing more v ↔ ∃ t, 0xDC00 ≤ t ∧ t ≤ 0xDFFF ∧ t / 16 ^ more = v := by
  have hpos : 0 < 16 ^ more := by positivity
  refine ⟨?_, ?_⟩
  · intro ⟨hlow, hhigh⟩
    rw [Nat.le_div_iff_mul_le hpos] at hhigh
    have hlow' : 0xDC00 < (v + 1) * 16 ^ more := by
      rw [← Nat.div_lt_iff_lt_mul hpos]
      omega
    -- The least number with this quotient, unless it lies below the band.
    refine ⟨max 0xDC00 (v * 16 ^ more), by omega, by omega, ?_⟩
    rw [Nat.div_eq_iff hpos]
    rw [Nat.add_mul] at hlow'
    omega
  · intro ⟨t, hlow, hhigh, hv⟩
    rw [← hv]
    exact ⟨Nat.div_le_div_right hlow, Nat.div_le_div_right hhigh⟩

/-- The last digits of four do not lead out of the trailing surrogates, where
zeros do not. -/
theorem trailing_of_filled_up {k n : Nat} (hk : k ≤ 4) (hlow : 0xDC00 ≤ n / 16 ^ k * 16 ^ k)
    (hhigh : n / 16 ^ k * 16 ^ k ≤ 0xDFFF) : 0xDC00 ≤ n ∧ n ≤ 0xDFFF := by
  interval_cases k <;> omega

end CodePoint

/-! ## From the escape to the list -/

namespace UnicodeEscape

/-- A text at the front of a spelling ends in front of the `u`, right behind it,
or among the digits. -/
theorem Spelled.prefix_cases {u : UnicodeEscape} {w t : List Char} (hw : u.Spelled w)
    (ht : t <+: w) (hne : t ≠ w) :
    t = [] ∨ t = ['u'] ∨ ∃ digits more : List Char,
      (∀ c ∈ digits ++ more, Hex.IsDigit c) ∧ u.value.toNat = Hex.value (digits ++ more) ∧
      ((t = 'u' :: digits ∧ digits.length + more.length = 4 ∧ more ≠ []) ∨
        t = 'u' :: '{' :: digits) := by
  cases hw with
  | fixed hlen hdigits hv =>
    rcases List.prefix_cons_iff.1 ht with hnil | ⟨digits, rfl, more, rfl⟩
    · exact .inl hnil
    · refine .inr (.inr ⟨digits, more, hdigits, hv, .inl ⟨rfl, ?_, ?_⟩⟩)
      · rw [← List.length_append]
        exact hlen
      · rintro rfl
        rw [List.append_nil] at hne
        exact hne rfl
  | braced _ hdigits hv _ =>
    rcases List.prefix_cons_iff.1 ht with hnil | ⟨behind, rfl, hbehind⟩
    · exact .inl hnil
    rcases List.prefix_cons_iff.1 hbehind with rfl | ⟨digits, rfl, hfront⟩
    · exact .inr (.inl rfl)
    rcases List.prefix_concat_iff.1 hfront with rfl | ⟨more, rfl⟩
    · exact absurd rfl hne
    · exact .inr (.inr ⟨digits, more, hdigits, hv, .inr rfl⟩)

/-- Without its end, an escape that is no trailing surrogate is in the list. -/
theorem Spelled.cutOff_of_prefix {u : UnicodeEscape} {w t : List Char} (hw : u.Spelled w)
    (hvalue : ¬ u.value.IsTrailing) (ht : t <+: w) (hne : t ≠ w) : CutOff t := by
  rw [CodePoint.isTrailing_iff_toNat] at hvalue
  rcases hw.prefix_cases ht hne with rfl | rfl | ⟨digits, more, hdigits, hv, ht⟩
  · exact .nothing
  · exact @CutOff.fixed [] (by decide) (by simp) (by simp)
  obtain ⟨hfront, hmore⟩ := List.forall_mem_append.1 hdigits
  rcases ht with ⟨rfl, hlen, hne⟩ | rfl
  · have hpos := List.length_pos_iff.2 hne
    have hdiv := @Hex.value_append_div digits more hmore
    have hk : 4 - digits.length = more.length := by omega
    refine .fixed (by omega) hfront ?_
    intro ⟨hlow, hhigh⟩
    rw [hk, ← hdiv, ← hv] at hlow hhigh
    exact hvalue (CodePoint.trailing_of_filled_up (by omega) hlow hhigh)
  · have hgrow := Hex.value_le_value_append digits more
    have hmax := hw.toNat_value_le
    exact .braced hfront (by omega)

/-- Without its end, a trailing surrogate is in the list of partners. -/
theorem Spelled.partnerCutOff_of_prefix {u : UnicodeEscape} {w t : List Char} (hw : u.Spelled w)
    (hvalue : u.value.IsTrailing) (ht : t <+: w) (hne : t ≠ w) : PartnerCutOff ('\\' :: t) := by
  obtain ⟨hlow, hhigh⟩ := CodePoint.isTrailing_iff_toNat.1 hvalue
  rcases hw.prefix_cases ht hne with rfl | rfl | ⟨digits, more, hdigits, hv, ht⟩
  · exact .backslash
  · exact @PartnerCutOff.fixed [] (by decide) (by simp) ⟨by decide, by decide⟩
  obtain ⟨hfront, hmore⟩ := List.forall_mem_append.1 hdigits
  have hleads : CodePoint.LeadsToTrailing more.length (Hex.value digits) :=
    CodePoint.leadsToTrailing_iff.2 ⟨_, hlow, hhigh, by rw [hv, Hex.value_append_div hmore]⟩
  rcases ht with ⟨rfl, hlen, hne⟩ | rfl
  · have hpos := List.length_pos_iff.2 hne
    have hk : more.length = 4 - digits.length := by omega
    rw [hk] at hleads
    exact .fixed (by omega) hfront hleads
  · exact .braced hfront hleads

/-! ## From the list to the escape -/

/-- The text is the beginning of a spelling of the number, and not all of it. -/
def Begins (t : List Char) (n : Nat) : Prop :=
  ∃ (u : UnicodeEscape) (w : List Char), u.Spelled w ∧ u.value.toNat = n ∧ t <+: w ∧ t ≠ w

/-- Fewer than four digits go on to any number that they are a quotient of. -/
theorem begins_fixed {digits : List Char} {n : Nat} (hlen : digits.length < 4)
    (hdigits : ∀ c ∈ digits, Hex.IsDigit c)
    (hn : n / 16 ^ (4 - digits.length) = Hex.value digits) : Begins ('u' :: digits) n := by
  obtain ⟨more, hmore, hmoreDigits, hvalue⟩ := Hex.exists_append_of_div_eq hn
  have hrow : ∀ c ∈ digits ++ more, Hex.IsDigit c :=
    List.forall_mem_append.2 ⟨hdigits, hmoreDigits⟩
  have hfour : (digits ++ more).length = 4 := by
    rw [List.length_append]
    omega
  have hlt := Hex.value_lt hrow
  rw [hfour, hvalue] at hlt
  have hword : (UInt32.ofNat n).toNat = n := CodePoint.toNat_ofNat_of_le (by omega)
  refine ⟨⟨.fixed, UInt32.ofNat n⟩, 'u' :: (digits ++ more), .fixed hfour hrow ?_, hword,
    ⟨more, rfl⟩, ?_⟩
  · rw [hword, hvalue]
  · intro heq
    have hsame := congrArg List.length heq
    simp only [List.length_cons, List.length_append] at hsame
    omega

/-- Digits behind a brace go on to any number that they are a quotient of and
that is not too large. -/
theorem begins_braced {digits : List Char} {more n : Nat} (hdigits : ∀ c ∈ digits, Hex.IsDigit c)
    (hn : n / 16 ^ more = Hex.value digits) (hmax : n ≤ 0x10FFFF) (hsome : digits ≠ [] ∨ 0 < more) :
    Begins ('u' :: '{' :: digits) n := by
  obtain ⟨es, hlen, hes, hvalue⟩ := Hex.exists_append_of_div_eq hn
  have hrow : ∀ c ∈ digits ++ es, Hex.IsDigit c := List.forall_mem_append.2 ⟨hdigits, hes⟩
  have hne : digits ++ es ≠ [] := by
    intro hnil
    obtain ⟨rfl, rfl⟩ := List.append_eq_nil_iff.1 hnil
    rw [List.length_nil] at hlen
    rcases hsome with h | h
    · exact h rfl
    · omega
  have hword := CodePoint.toNat_ofNat_of_le hmax
  refine ⟨⟨.braced, UInt32.ofNat n⟩, 'u' :: '{' :: (digits ++ es ++ ['}']),
    .braced hne hrow ?_ ?_, hword, ⟨es ++ ['}'], by simp⟩, by simp⟩
  · rw [hword, hvalue]
  · rw [hvalue]
    exact hmax

end UnicodeEscape

open UnicodeEscape

/-- Two spellings of surrogates that belong together are a piece. -/
theorem Piece.exists_valid_pair {lead trail : UnicodeEscape} {w w' : List Char}
    (hw : lead.Spelled w) (hw' : trail.Spelled w') (hl : lead.value.IsLeading)
    (ht : trail.value.IsTrailing) : ∃ c, Piece.Valid ⟨'\\' :: (w ++ '\\' :: w'), c⟩ := by
  obtain ⟨c, hc⟩ := CodePoint.exists_toChar?_combine hl ht
  have hval := CodePoint.toChar?_eq_some_iff.1 hc
  exact ⟨c, .pair hw hw' hl ht ((CodePoint.val_eq_combine_iff hl ht).1 hval)⟩

/-- What is in the list of partners goes on to a trailing surrogate. -/
theorem PartnerCutOff.exists_partner {rest : List Char} (h : PartnerCutOff rest) :
    ∃ (trail : UnicodeEscape) (w : List Char), trail.Spelled w ∧ trail.value.IsTrailing ∧
      rest <+: '\\' :: w ∧ rest ≠ '\\' :: w := by
  have hdc00 : Spelled ⟨.fixed, 0xDC00⟩ ['u', 'D', 'C', '0', '0'] := spelled_of_read (by cbv)
  have hbegins : ∀ {t n}, Begins t n → 0xDC00 ≤ n → n ≤ 0xDFFF →
      ∃ (trail : UnicodeEscape) (w : List Char), trail.Spelled w ∧ trail.value.IsTrailing ∧
        '\\' :: t <+: '\\' :: w ∧ '\\' :: t ≠ '\\' :: w := by
    rintro t n ⟨trail, w, hw, rfl, ht, hne⟩ hlow hhigh
    exact ⟨trail, w, hw, CodePoint.isTrailing_iff_toNat.2 ⟨hlow, hhigh⟩,
      List.cons_prefix_cons.2 ⟨rfl, ht⟩, fun heq => hne (List.cons.inj heq).2⟩
  cases h with
  | nothing => exact ⟨_, _, hdc00, by decide, List.nil_prefix, by simp⟩
  | backslash => exact ⟨_, _, hdc00, by decide, ⟨_, rfl⟩, by simp⟩
  | fixed hlen hdigits hleads =>
    obtain ⟨n, hlow, hhigh, hn⟩ := CodePoint.leadsToTrailing_iff.1 hleads
    exact hbegins (begins_fixed hlen hdigits hn) hlow hhigh
  | @braced digits more hdigits hleads =>
    obtain ⟨n, hlow, hhigh, hn⟩ := CodePoint.leadsToTrailing_iff.1 hleads
    have hsome : digits ≠ [] ∨ 0 < more := by
      by_contra hnone
      obtain ⟨rfl, rfl⟩ : digits = [] ∧ more = 0 := by simpa using hnone
      rw [pow_zero, Nat.div_one, Hex.value_nil] at hn
      omega
    exact hbegins (begins_braced hdigits hn (by omega) hsome) hlow hhigh

/-- The beginning of a number that is no trailing surrogate goes on to an escape,
with a partner behind it if the number is a leading one. -/
theorem unfinished_of_begins {t : List Char} {n : Nat} (h : Begins t n)
    (hn : ¬ (0xDC00 ≤ n ∧ n ≤ 0xDFFF)) : Unfinished ('\\' :: t) := by
  obtain ⟨u, w, hw, rfl, ht, hne⟩ := h
  by_cases hl : u.value.IsLeading
  · obtain ⟨trail, w', hw', ht', -, -⟩ := PartnerCutOff.nothing.exists_partner
    obtain ⟨c, hpair⟩ := Piece.exists_valid_pair hw hw' hl ht'
    refine ⟨_, hpair, rfl, List.cons_prefix_cons.2 ⟨rfl, ht.trans (List.prefix_append _ _)⟩, ?_⟩
    intro heq
    have hlen := congrArg List.length heq
    have hshort := ht.length_le
    simp only [List.length_cons, List.length_append] at hlen
    omega
  · have ht' : ¬ u.value.IsTrailing := fun ht' => hn (CodePoint.isTrailing_iff_toNat.1 ht')
    obtain ⟨c, hc⟩ := CodePoint.exists_toChar? hw.toNat_value_le hl ht'
    exact ⟨_, .scalar hw (CodePoint.toChar?_eq_some_iff.1 hc), rfl,
      List.cons_prefix_cons.2 ⟨rfl, ht⟩, fun heq => hne (List.cons.inj heq).2⟩

/-- What is in the list goes on to an escape. -/
theorem CutOff.unfinished {tail : List Char} (h : CutOff tail) : Unfinished ('\\' :: tail) := by
  cases h with
  | nothing => exact ⟨⟨['\\', 'n'], '\n'⟩, .simple (by decide), rfl, ⟨['n'], rfl⟩, by simp⟩
  | @fixed digits hlen hdigits hfilled =>
    have hdiv : Hex.value digits * 16 ^ (4 - digits.length) / 16 ^ (4 - digits.length) =
        Hex.value digits := Nat.mul_div_cancel _ (by positivity)
    exact unfinished_of_begins (begins_fixed hlen hdigits hdiv) hfilled
  | @braced digits hdigits hmax =>
    by_cases hmore : digits = [] ∨ (0xDC00 ≤ Hex.value digits ∧ Hex.value digits ≤ 0xDFFF)
    · -- One more digit, a zero.
      have hzero : Hex.value digits * 16 ≤ 0x10FFFF ∧
          ¬ (0xDC00 ≤ Hex.value digits * 16 ∧ Hex.value digits * 16 ≤ 0xDFFF) := by
        rcases hmore with rfl | hmore
        · rw [Hex.value_nil]
          omega
        · omega
      have hdiv : Hex.value digits * 16 / 16 ^ 1 = Hex.value digits := by omega
      exact unfinished_of_begins (begins_braced hdigits hdiv hzero.1 (.inr (by omega))) hzero.2
    · obtain ⟨hne, htrail⟩ := not_or.1 hmore
      have hdiv : Hex.value digits / 16 ^ 0 = Hex.value digits := by omega
      exact unfinished_of_begins (begins_braced hdigits hdiv hmax (.inl hne)) htrail
  | leading hw hl hrest =>
    obtain ⟨trail, w', hw', ht', hprefix, hne⟩ := hrest.exists_partner
    obtain ⟨c, hpair⟩ := Piece.exists_valid_pair hw hw' hl ht'
    refine ⟨_, hpair, rfl, List.cons_prefix_cons.2 ⟨rfl, ?_⟩, ?_⟩
    · exact (List.prefix_append_right_inj _).2 hprefix
    · intro heq
      exact hne (List.append_cancel_left (List.cons.inj heq).2)

/-! ## The list is right and complete -/

/-- An escape without its end is in the list. -/
theorem cutOff_of_unfinished {tail : List Char} (h : Unfinished ('\\' :: tail)) : CutOff tail := by
  obtain ⟨p, hp, hescape, hprefix, hne⟩ := h
  cases hp with
  | plain hc =>
    rw [Piece.isEscape_plain hc] at hescape
    exact absurd hescape Bool.false_ne_true
  | simple _ =>
    rcases List.prefix_cons_iff.1 (List.cons_prefix_cons.1 hprefix).2 with rfl | ⟨t, rfl, ht⟩
    · exact .nothing
    · obtain rfl := List.prefix_nil.1 ht
      exact absurd rfl hne
  | @scalar u w c hw hc =>
    have ht : ¬ u.value.IsTrailing := hc ▸ CodePoint.not_isTrailing_val c
    exact hw.cutOff_of_prefix ht (List.cons_prefix_cons.1 hprefix).2 fun heq => hne (heq ▸ rfl)
  | @pair lead trail w w' c hw hw' hl ht _ =>
    obtain ⟨s, hs⟩ := (List.cons_prefix_cons.1 hprefix).2
    rcases List.append_eq_append_iff.1 hs with ⟨v, rfl, -⟩ | ⟨v, rfl, hv⟩
    · -- The text ends in the first half, or right behind it.
      cases v with
      | nil =>
        rw [List.append_nil] at hw
        have hcut := CutOff.leading hw hl .nothing
        rwa [List.append_nil] at hcut
      | cons d v =>
        exact hw.cutOff_of_prefix (CodePoint.not_isTrailing_of_isLeading hl)
          (List.prefix_append _ _) (by simp)
    · refine .leading hw hl ?_
      rcases List.prefix_cons_iff.1 ⟨s, hv.symm⟩ with rfl | ⟨t, rfl, ht'⟩
      · exact .nothing
      · exact hw'.partnerCutOff_of_prefix ht ht' fun heq => hne (heq ▸ rfl)

/-- Behind a backslash the list holds the unfinished escapes, and nothing else. -/
theorem unfinished_cons_iff_cutOff {tail : List Char} :
    Unfinished ('\\' :: tail) ↔ CutOff tail := ⟨cutOff_of_unfinished, CutOff.unfinished⟩

/-- An unfinished escape has at least its backslash, or there is nothing. -/
theorem Unfinished.eq_nil_or_eq_cons {text : List Char} (h : Unfinished text) :
    text = [] ∨ ∃ tail, text = '\\' :: tail := by
  obtain ⟨p, -, hescape, hprefix, -⟩ := h
  obtain ⟨w, hw⟩ : ∃ w, p.written = '\\' :: w :=
    List.head?_eq_some_iff.1 (by simpa [Piece.isEscape] using hescape)
  rw [hw, List.prefix_cons_iff] at hprefix
  rcases hprefix with hnil | ⟨tail, htail, -⟩
  · exact .inl hnil
  · exact .inr ⟨tail, htail⟩

end GraphqlLiteral
