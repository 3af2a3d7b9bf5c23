import GraphqlLiteral.Grammar
import GraphqlLiteral.Proofs.CodePoint
import Mathlib

/-!
# The reader and the spellings

`Escape.read` takes exactly the spellings of the grammar, each where it ends
(`read_eq_ok_iff`), and none of them begins another one.
-/

namespace GraphqlLiteral

/-!
## The reader takes the spellings

`Escape.read` takes a text exactly when it begins with a spelling of an escape,
and gives back what stands behind that spelling (`read_eq_ok_iff`). For each of
the two digit loops this is said in two steps: a success has read a row of
digits, and on a row of digits the word holds the number of the row, behind
whatever digits came before.
-/

namespace UnicodeEscape

/-! ### Four digits -/

theorem readDigits_of_digit {count : Nat} {value d : CodePoint} {c : Char} {text : List Char}
    (hd : Hex.digit? c = some d) :
    readDigits (count + 1) value (c :: text) = readDigits count (Hex.push value d) text := by
  simp only [readDigits, hd]

/-- A success has read `count` digits. -/
theorem exists_digits_of_readDigits {count : Nat} {value v : CodePoint} {text rest : List Char}
    (h : readDigits count value text = .ok (v, rest)) :
    ∃ digits, digits.length = count ∧ (∀ c ∈ digits, Hex.IsDigit c) ∧ text = digits ++ rest := by
  induction count generalizing value text with
  | zero =>
    simp only [readDigits, Except.ok.injEq, Prod.mk.injEq] at h
    exact ⟨[], rfl, by simp, h.2⟩
  | succ count ih =>
    cases text with
    | nil => simp [readDigits] at h
    | cons c text =>
      cases hd : Hex.digit? c with
      | none => simp [readDigits, hd] at h
      | some d =>
        rw [readDigits_of_digit hd] at h
        obtain ⟨digits, hlen, hdigits, htext⟩ := ih h
        have hc := (Hex.digit?_eq_some_iff.1 hd).1
        refine ⟨c :: digits, ?_, List.forall_mem_cons.2 ⟨hc, hdigits⟩, ?_⟩
        · rw [List.length_cons, hlen]
        · rw [htext, List.cons_append]

/-- The word that holds the row `done` holds the whole row after `digits`: it
is wide enough for eight. -/
theorem readDigits_append {value : CodePoint} {done digits : List Char} (rest : List Char)
    (hvalue : value.toNat = Hex.value done) (hdone : ∀ c ∈ done, Hex.IsDigit c)
    (hdigits : ∀ c ∈ digits, Hex.IsDigit c) (hlen : done.length + digits.length ≤ 8) :
    readDigits digits.length value (digits ++ rest) =
      .ok (UInt32.ofNat (Hex.value (done ++ digits)), rest) := by
  induction digits generalizing value done with
  | nil =>
    rw [List.append_nil, ← hvalue, UInt32.ofNat_toNat]
    rfl
  | cons c digits ih =>
    obtain ⟨hc, hdigits'⟩ := List.forall_mem_cons.1 hdigits
    obtain ⟨d, hd⟩ := Hex.exists_digit? hc
    rw [List.length_cons] at hlen
    -- Seven digits at most came before, so the next one still fits.
    have hsmall : Hex.value done < 2 ^ 28 := calc
      Hex.value done < 16 ^ done.length := Hex.value_lt hdone
      _ ≤ 16 ^ 7 := Nat.pow_le_pow_right (by omega) (by omega)
      _ = 2 ^ 28 := by norm_num
    have hdone' : ∀ e ∈ done ++ [c], Hex.IsDigit e :=
      List.forall_mem_append.2 ⟨hdone, List.forall_mem_singleton.2 hc⟩
    have hread := ih (Hex.toNat_push_of_toNat hvalue hsmall hd) hdone' hdigits'
      (by rw [List.length_append, List.length_singleton]; omega)
    rw [List.append_assoc, List.singleton_append] at hread
    rw [List.length_cons, List.cons_append, readDigits_of_digit hd, hread]

/-- Without a brace, exactly four digits. -/
theorem readDigits_four_eq_ok_iff {v : CodePoint} {text rest : List Char} :
    readDigits 4 0 text = .ok (v, rest) ↔
      ∃ digits, digits.length = 4 ∧ (∀ c ∈ digits, Hex.IsDigit c) ∧
        v.toNat = Hex.value digits ∧ text = digits ++ rest := by
  have hrow : ∀ digits : List Char, digits.length = 4 → (∀ c ∈ digits, Hex.IsDigit c) →
      readDigits 4 0 (digits ++ rest) = .ok (UInt32.ofNat (Hex.value digits), rest) ∧
        Hex.value digits < 2 ^ 32 := by
    intro digits hlen hdigits
    have hread := @readDigits_append 0 [] digits rest rfl (by simp) hdigits (by simp [hlen])
    have hlt := Hex.value_lt hdigits
    rw [hlen] at hread hlt
    exact ⟨hread, by omega⟩
  refine ⟨?_, ?_⟩
  · intro h
    obtain ⟨digits, hlen, hdigits, rfl⟩ := exists_digits_of_readDigits h
    obtain ⟨hread, hlt⟩ := hrow digits hlen hdigits
    rw [hread, Except.ok.injEq, Prod.mk.injEq] at h
    exact ⟨digits, hlen, hdigits, by rw [← h.1, UInt32.toNat_ofNat_of_lt' hlt], rfl⟩
  · intro ⟨digits, hlen, hdigits, hv, htext⟩
    rw [htext, (hrow digits hlen hdigits).1, ← hv, UInt32.ofNat_toNat]

/-! ### Digits up to a brace -/

theorem readToBrace_of_brace {value : CodePoint} {count : Nat} {text : List Char}
    (hcount : 0 < count) : readToBrace value count ('}' :: text) = .ok (value, text) := by
  simp only [readToBrace, hcount, and_self, if_true]

theorem readToBrace_of_digit {value d : CodePoint} {count : Nat} {c : Char} {text : List Char}
    (hd : Hex.digit? c = some d) :
    readToBrace value count (c :: text) =
      if CodePoint.maxScalar < Hex.push value d then .error .invalid
      else readToBrace (Hex.push value d) (count + 1) text := by
  have hc : c ≠ '}' := by
    intro hbrace
    rw [hbrace] at hd
    exact Hex.not_isDigit_closingBrace (Hex.digit?_eq_some_iff.1 hd).1
  simp only [readToBrace, hc, false_and, if_false, hd]

/-- A success has read digits and a brace, and some digit was before the
brace. -/
theorem exists_digits_of_readToBrace {value v : CodePoint} {count : Nat} {text rest : List Char}
    (h : readToBrace value count text = .ok (v, rest)) :
    ∃ digits, 0 < count + digits.length ∧ (∀ c ∈ digits, Hex.IsDigit c) ∧
      text = digits ++ '}' :: rest := by
  induction text generalizing value count with
  | nil => simp [readToBrace] at h
  | cons c text ih =>
    cases hd : Hex.digit? c with
    | none =>
      -- Only the closing brace is taken without being a digit.
      simp only [readToBrace, hd] at h
      split at h
      · next hend =>
        simp only [Except.ok.injEq, Prod.mk.injEq] at h
        exact ⟨[], hend.2, by simp, by rw [hend.1, h.2, List.nil_append]⟩
      · simp at h
    | some d =>
      rw [readToBrace_of_digit hd] at h
      split at h
      · simp at h
      · obtain ⟨digits, -, hdigits, htext⟩ := ih h
        have hc := (Hex.digit?_eq_some_iff.1 hd).1
        refine ⟨c :: digits, ?_, List.forall_mem_cons.2 ⟨hc, hdigits⟩, ?_⟩
        · rw [List.length_cons]
          omega
        · rw [htext, List.cons_append]

/-- The word that holds the row `done` holds the whole row at the brace, unless
its number is too large. To stop at the first number that is too large loses
nothing: more digits never make it smaller. -/
theorem readToBrace_append {value : CodePoint} {done digits : List Char} (rest : List Char)
    (hvalue : value.toNat = Hex.value done) (hmax : Hex.value done ≤ 0x10FFFF)
    (hdigits : ∀ c ∈ digits, Hex.IsDigit c) (hpos : 0 < done.length + digits.length) :
    readToBrace value done.length (digits ++ '}' :: rest) =
      if Hex.value (done ++ digits) ≤ 0x10FFFF then
        .ok (UInt32.ofNat (Hex.value (done ++ digits)), rest)
      else .error .invalid := by
  induction digits generalizing value done with
  | nil =>
    rw [List.length_nil, Nat.add_zero] at hpos
    rw [List.nil_append, readToBrace_of_brace hpos, List.append_nil, if_pos hmax, ← hvalue,
      UInt32.ofNat_toNat]
  | cons c digits ih =>
    obtain ⟨hc, hdigits'⟩ := List.forall_mem_cons.1 hdigits
    obtain ⟨d, hd⟩ := Hex.exists_digit? hc
    have hpush := Hex.toNat_push_of_toNat hvalue (by omega) hd
    have hrow : done ++ c :: digits = (done ++ [c]) ++ digits := by simp
    rw [List.cons_append, readToBrace_of_digit hd, hrow]
    by_cases hlarge : CodePoint.maxScalar < Hex.push value d
    · -- The reader stops here, and the whole row is too large as well.
      have hlarge' : 0x10FFFF < (Hex.push value d).toNat := UInt32.lt_iff_toNat_lt.1 hlarge
      have hgrow := Hex.value_le_value_append (done ++ [c]) digits
      rw [if_pos hlarge, if_neg (by omega)]
    · have hmax' : Hex.value (done ++ [c]) ≤ 0x10FFFF := by
        rw [← hpush]
        exact Nat.le_of_not_lt fun hlt => hlarge (UInt32.lt_iff_toNat_lt.2 hlt)
      have hread := ih hpush hmax' hdigits' (by simp)
      rw [List.length_append, List.length_singleton] at hread
      rw [if_neg hlarge, hread]

/-- Behind a brace, one digit at least. -/
theorem readToBrace_zero_eq_ok_iff {v : CodePoint} {text rest : List Char} :
    readToBrace 0 0 text = .ok (v, rest) ↔
      ∃ digits, digits ≠ [] ∧ (∀ c ∈ digits, Hex.IsDigit c) ∧
        v.toNat = Hex.value digits ∧ Hex.value digits ≤ 0x10FFFF ∧
        text = digits ++ '}' :: rest := by
  have hrow : ∀ digits : List Char, digits ≠ [] → (∀ c ∈ digits, Hex.IsDigit c) →
      readToBrace 0 0 (digits ++ '}' :: rest) =
        if Hex.value digits ≤ 0x10FFFF then .ok (UInt32.ofNat (Hex.value digits), rest)
        else .error .invalid := by
    intro digits hne hdigits
    have hpos := List.length_pos_iff.2 hne
    exact @readToBrace_append 0 [] digits rest rfl (Nat.zero_le _) hdigits (by simpa using hpos)
  refine ⟨?_, ?_⟩
  · intro h
    obtain ⟨digits, hpos, hdigits, rfl⟩ := exists_digits_of_readToBrace h
    have hne : digits ≠ [] := List.length_pos_iff.1 (by omega)
    rw [hrow digits hne hdigits] at h
    split at h
    · next hmax =>
      rw [Except.ok.injEq, Prod.mk.injEq] at h
      have hlt : Hex.value digits < 2 ^ 32 := by omega
      exact ⟨digits, hne, hdigits, by rw [← h.1, UInt32.toNat_ofNat_of_lt' hlt], hmax, rfl⟩
    · simp at h
  · intro ⟨digits, hne, hdigits, hv, hmax, htext⟩
    rw [htext, hrow digits hne hdigits, if_pos hmax, ← hv, UInt32.ofNat_toNat]

/-! ### The two forms -/

/-- Only an opening brace decides for the braced form. -/
theorem read_of_head?_ne_brace {text : List Char} (hhead : text.head? ≠ some '{') :
    read text = match readDigits 4 0 text with
      | .error e => .error e
      | .ok (value, rest) => .ok (⟨.fixed, value⟩, rest) := by
  unfold read
  split
  · exact absurd rfl hhead
  · rfl

/-- A row of digits does not begin with a brace. -/
theorem head?_append_ne_brace {digits : List Char} (hne : digits ≠ [])
    (hdigits : ∀ c ∈ digits, Hex.IsDigit c) (rest : List Char) :
    (digits ++ rest).head? ≠ some '{' := by
  obtain ⟨c, digits, rfl⟩ := List.exists_cons_of_ne_nil hne
  intro hhead
  obtain rfl : c = '{' := by simpa using hhead
  exact Hex.not_isDigit_openingBrace (hdigits '{' (by simp))

/-- The reader takes a Unicode escape exactly when one is spelled there. -/
theorem read_eq_ok_iff {u : UnicodeEscape} {text rest : List Char} :
    read text = .ok (u, rest) ↔ ∃ w, u.Spelled ('u' :: w) ∧ text = w ++ rest := by
  refine ⟨?_, ?_⟩
  · intro h
    unfold read at h
    split at h
    · split at h
      · simp at h
      · next hread =>
        obtain ⟨digits, hne, hdigits, hv, hmax, rfl⟩ := readToBrace_zero_eq_ok_iff.1 hread
        simp only [Except.ok.injEq, Prod.mk.injEq] at h
        obtain ⟨rfl, rfl⟩ := h
        exact ⟨_, .braced hne hdigits hv hmax, by simp⟩
    · split at h
      · simp at h
      · next hread =>
        obtain ⟨digits, hlen, hdigits, hv, rfl⟩ := readDigits_four_eq_ok_iff.1 hread
        simp only [Except.ok.injEq, Prod.mk.injEq] at h
        obtain ⟨rfl, rfl⟩ := h
        exact ⟨_, .fixed hlen hdigits hv, rfl⟩
  · intro ⟨w, hw, htext⟩
    subst htext
    cases hw with
    | fixed hlen hdigits hv =>
      have hne : w ≠ [] := List.ne_nil_of_length_eq_add_one hlen
      rw [read_of_head?_ne_brace (head?_append_ne_brace hne hdigits rest),
        readDigits_four_eq_ok_iff.2 ⟨w, hlen, hdigits, hv, rfl⟩]
    | @braced digits _ hne hdigits hv hmax =>
      have hread : readToBrace 0 0 (digits ++ '}' :: rest) = .ok (_, rest) :=
        readToBrace_zero_eq_ok_iff.2 ⟨digits, hne, hdigits, hv, hmax, rfl⟩
      simp only [List.cons_append, List.append_assoc, List.nil_append]
      rw [read, hread]

/-- To read a text to its end shows how it is spelled. -/
theorem spelled_of_read {u : UnicodeEscape} {w : List Char} (h : read w = .ok (u, [])) :
    u.Spelled ('u' :: w) := by
  obtain ⟨w', hw', heq⟩ := read_eq_ok_iff.1 h
  rw [List.append_nil] at heq
  rw [heq]
  exact hw'

/-- The spelling of a Unicode escape begins with its `u`. -/
theorem Spelled.exists_eq_cons {u : UnicodeEscape} {w : List Char} (h : u.Spelled w) :
    ∃ w', w = 'u' :: w' := by
  cases h with
  | fixed => exact ⟨_, rfl⟩
  | braced => exact ⟨_, rfl⟩

/-- A `u` with four digits, or with a digit between braces at least. -/
theorem Spelled.four_le_length {u : UnicodeEscape} {w : List Char} (h : u.Spelled w) :
    4 ≤ w.length := by
  cases h with
  | fixed hlen _ _ =>
    rw [List.length_cons]
    omega
  | braced hne _ _ _ =>
    have hpos := List.length_pos_iff.2 hne
    simp only [List.length_cons, List.length_append, List.length_nil]
    omega

/-- Four digits write sixteen bits. -/
theorem Spelled.toNat_value_lt_of_fixed {u : UnicodeEscape} {w : List Char} (h : u.Spelled w)
    (hform : u.form = .fixed) : u.value.toNat < 16 ^ 4 := by
  cases h with
  | fixed hlen hdigits hv =>
    rw [hv, ← hlen]
    exact Hex.value_lt hdigits
  | braced => exact absurd hform (by simp)

/-- No form writes more than the largest code point. -/
theorem Spelled.toNat_value_le {u : UnicodeEscape} {w : List Char} (h : u.Spelled w) :
    u.value.toNat ≤ 0x10FFFF := by
  cases h with
  | fixed hlen hdigits hv =>
    have hlt := (Spelled.fixed hlen hdigits hv).toNat_value_lt_of_fixed rfl
    omega
  | braced _ _ hv hmax =>
    rw [hv]
    exact hmax

end UnicodeEscape

namespace Escape

/-- The reader takes an escape exactly when one is spelled there. -/
theorem read_eq_ok_iff {e : Escape} {text rest : List Char} :
    read text = .ok (e, rest) ↔ ∃ w, e.Spelled w ∧ text = w ++ rest := by
  refine ⟨?_, ?_⟩
  · intro h
    unfold read at h
    split at h
    · simp at h
    · split at h
      · simp at h
      · next hread =>
        obtain ⟨w, hw, rfl⟩ := UnicodeEscape.read_eq_ok_iff.1 hread
        simp only [Except.ok.injEq, Prod.mk.injEq] at h
        obtain ⟨rfl, rfl⟩ := h
        exact ⟨_, .unicode hw, rfl⟩
    · split at h
      · simp at h
      · next hmeaning =>
        simp only [Except.ok.injEq, Prod.mk.injEq] at h
        obtain ⟨rfl, rfl⟩ := h
        exact ⟨_, .simple (simpleChar?_eq_some_iff.1 hmeaning), rfl⟩
  · intro ⟨w, hw, htext⟩
    subst htext
    cases hw with
    | @simple c _ hmem =>
      have hmeaning := simpleChar?_eq_some_iff.2 hmem
      have hu : c ≠ 'u' := by
        intro hcu
        subst hcu
        simp [simpleChar?] at hmeaning
      rw [List.singleton_append, read]
      · rw [hmeaning]
      · exact hu
    | unicode hu =>
      obtain ⟨w', rfl⟩ := hu.exists_eq_cons
      rw [List.cons_append, read, UnicodeEscape.read_eq_ok_iff.2 ⟨w', hu, rfl⟩]

/-!
## One escape and no more

`Escape.read` stops right behind the escape that it takes, and what stands there
has no say in it. Two spellings at the front of one text are read in the same
way, so they are the same (`Spelled.eq_of_append_eq`); in particular no spelling
is the beginning of a longer one.
-/

/-- A spelling is taken whatever stands behind it. -/
theorem Spelled.read_append {e : Escape} {w : List Char} (hw : e.Spelled w) (rest : List Char) :
    read (w ++ rest) = .ok (e, rest) := read_eq_ok_iff.2 ⟨w, hw, rfl⟩

/-- At the front of a text stands one spelling at most. -/
theorem Spelled.eq_of_append_eq {e e' : Escape} {w w' rest rest' : List Char}
    (hw : e.Spelled w) (hw' : e'.Spelled w') (h : w ++ rest = w' ++ rest') :
    w = w' ∧ e = e' := by
  have hread := hw.read_append rest
  rw [h, hw'.read_append rest', Except.ok.injEq, Prod.mk.injEq] at hread
  obtain ⟨rfl, rfl⟩ := hread
  exact ⟨List.append_cancel_right h, rfl⟩

/-- The reader takes exactly one escape. It succeeds where a spelling stands at
the front of the text, and leaves what stands behind it. No spelling begins
another one, a text has at most one at its front, and the reader takes it
whatever else may follow. -/
theorem read_takes_exactly_one_spelling :
    (∀ (text rest : List Char) (e : Escape),
      read text = .ok (e, rest) ↔ ∃ w, e.Spelled w ∧ text = w ++ rest) ∧
    (∀ (e e' : Escape) (w w' : List Char), e.Spelled w → e'.Spelled w' → w <+: w' → w = w') ∧
    (∀ (text : List Char) (e e' : Escape) (w w' : List Char), e.Spelled w → e'.Spelled w' →
      w <+: text → w' <+: text → w = w' ∧ e = e') ∧
    ∀ (e : Escape) (w : List Char), e.Spelled w → ∀ rest, read (w ++ rest) = .ok (e, rest) := by
  refine ⟨fun text rest e => read_eq_ok_iff, ?_, ?_, fun e w hw => hw.read_append⟩
  · rintro e e' w w' hw hw' ⟨rest, hrest⟩
    rw [← List.append_nil w'] at hrest
    exact (hw.eq_of_append_eq hw' hrest).1
  · rintro text e e' w w' hw hw' ⟨rest, rfl⟩ ⟨rest', hrest⟩
    exact hw.eq_of_append_eq hw' hrest.symm

/-- Half a pair in front of its other half. A fifth digit is no part of the
escape, and no braces are missing. -/
theorem read_first_half_of_pair :
    Spelled (.unicode ⟨.fixed, 0xD83D⟩) ['u', 'D', '8', '3', 'd'] ∧
    read ['u', 'D', '8', '3', 'd', '\\', 'u', 'D', 'E', '0', '0'] =
      .ok (.unicode ⟨.fixed, 0xD83D⟩, ['\\', 'u', 'D', 'E', '0', '0']) ∧
    (¬ ∃ e, Spelled e ['u', 'D', '8', '3', 'd', '0']) ∧
    ¬ ∃ e, Spelled e ['u'] ∨ Spelled e ['u', 'D', '8'] := by
  obtain ⟨hiff, hbegin, hunique, hread⟩ := read_takes_exactly_one_spelling
  have hw : Spelled (.unicode ⟨.fixed, 0xD83D⟩) ['u', 'D', '8', '3', 'd'] :=
    .unicode (UnicodeEscape.spelled_of_read (by cbv))
  refine ⟨hw, hread _ _ hw _, ?_, ?_⟩
  · rintro ⟨e, he⟩
    exact absurd (hbegin _ _ _ _ hw he ⟨['0'], rfl⟩) (by decide)
  · rintro ⟨e, he | he⟩
    · exact absurd (hunique _ _ _ _ _ he hw ⟨_, rfl⟩ ⟨[], rfl⟩).1 (by decide)
    · exact absurd (hunique _ _ _ _ _ he hw ⟨_, rfl⟩ ⟨[], rfl⟩).1 (by decide)

end Escape

end GraphqlLiteral
