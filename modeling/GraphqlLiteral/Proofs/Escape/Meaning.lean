import GraphqlLiteral.Proofs.Escape.Spelling
import Mathlib

/-!
# What stands behind a backslash

The text behind one backslash has a meaning if a piece of the grammar is written
there (`readMeaning_eq_ok_iff`), and if not, it is in the list `BadTail`
(`readMeaning_eq_error_iff_badTail`).
-/

namespace GraphqlLiteral

/-!
## One backslash, one piece

What a reader makes of the text behind one backslash: it succeeds exactly when a
piece of the grammar is written there (`readMeaning_eq_ok_iff`). The three bands
come first, one lemma each; the leading surrogates carry the pairing.
-/

namespace UnicodeEscape

/-! ### The three bands -/

/-- An escape outside the surrogates means the character of its number, whatever
comes behind it. -/
theorem meaning_of_val_eq {u : UnicodeEscape} {c : Char} (hc : c.val = u.value)
    (text : List Char) : u.meaning text = .ok (c, text) := by
  have hband : u.value.band = .scalar := by
    rw [← hc]
    exact CodePoint.band_eq_scalar_iff.2
      ⟨CodePoint.not_isLeading_val c, CodePoint.not_isTrailing_val c⟩
  simp only [meaning, hband, CodePoint.toChar?_eq_some_iff.2 hc]

/-- A trailing surrogate never stands first. -/
theorem meaning_of_isTrailing {u : UnicodeEscape} (ht : u.value.IsTrailing) (text : List Char) :
    u.meaning text = .error .invalid := by
  simp only [meaning, CodePoint.band_eq_trailing_iff.2 ht]

/-- A leading surrogate means something only with a trailing one right behind
it, in whatever form. -/
theorem meaning_eq_ok_iff_of_isLeading {u : UnicodeEscape} {c : Char} {text rest : List Char}
    (hl : u.value.IsLeading) :
    u.meaning text = .ok (c, rest) ↔
      ∃ (trail : UnicodeEscape) (w : List Char), trail.Spelled w ∧ trail.value.IsTrailing ∧
        c.val = u.value.combine trail.value ∧ text = '\\' :: (w ++ rest) := by
  have hband := CodePoint.band_eq_leading_iff.2 hl
  refine ⟨?_, ?_⟩
  · intro h
    simp only [meaning, hband] at h
    split at h
    · next behind =>
      split at h
      · simp at h
      · next trail rest' hread =>
        obtain ⟨w, hw, rfl⟩ := read_eq_ok_iff.1 hread
        split at h
        · next ht =>
          split at h
          · simp at h
          · next c' hchar =>
            simp only [Except.ok.injEq, Prod.mk.injEq] at h
            obtain ⟨rfl, rfl⟩ := h
            exact ⟨trail, 'u' :: w, hw, ht, CodePoint.toChar?_eq_some_iff.1 hchar, rfl⟩
        · simp at h
    · simp at h
  · intro ⟨trail, w, hw, ht, hc, htext⟩
    subst htext
    obtain ⟨w', rfl⟩ := hw.exists_eq_cons
    have hread : read (w' ++ rest) = .ok (trail, rest) := read_eq_ok_iff.2 ⟨w', hw, rfl⟩
    simp only [meaning, hband, List.cons_append, hread, if_pos ht,
      CodePoint.toChar?_eq_some_iff.2 hc]

/-- The same in terms of the grammar: no partner, no meaning. -/
theorem meaning_of_not_startsWithTrailing {u : UnicodeEscape} {text : List Char}
    (hl : u.value.IsLeading) (htext : ¬ StartsWithTrailing text) :
    u.meaning text = .error .invalid := by
  cases h : u.meaning text with
  | error e => rfl
  | ok r =>
    obtain ⟨c, rest⟩ := r
    obtain ⟨trail, w, hw, ht, -, rfl⟩ := (meaning_eq_ok_iff_of_isLeading hl).1 h
    exact absurd ⟨trail, w, rest, hw, ht, rfl⟩ htext

end UnicodeEscape

/-! ### The pieces -/

/-- The character of a pair as the grammar tells it, and as the word holds it. -/
theorem CodePoint.val_eq_combine_iff {lead trail : CodePoint} (hl : lead.IsLeading)
    (ht : trail.IsTrailing) {c : Char} :
    c.val = lead.combine trail ↔
      c.toNat = 0x10000 + (lead.toNat - 0xD800) * 0x400 + (trail.toNat - 0xDC00) := by
  rw [← UInt32.toNat_inj, CodePoint.toNat_combine hl ht]
  exact Iff.rfl

namespace Escape

/-- A spelling of a Unicode escape is read as that escape. -/
theorem readMeaning_of_spelled {u : UnicodeEscape} {w : List Char} (hw : u.Spelled w)
    (rest : List Char) : readMeaning (w ++ rest) = u.meaning rest := by
  have hread : read (w ++ rest) = .ok (.unicode u, rest) :=
    read_eq_ok_iff.2 ⟨w, .unicode hw, rfl⟩
  simp only [readMeaning, hread, meaning]

/-- A success has taken the text of a piece. -/
theorem exists_valid_of_readMeaning {c : Char} {behind rest : List Char}
    (h : readMeaning behind = .ok (c, rest)) :
    ∃ w, Piece.Valid ⟨'\\' :: w, c⟩ ∧ behind = w ++ rest := by
  unfold readMeaning at h
  split at h
  · simp at h
  · next e text hread =>
    obtain ⟨w, hw, rfl⟩ := read_eq_ok_iff.1 hread
    cases hw with
    | simple hmem =>
      simp only [meaning, Except.ok.injEq, Prod.mk.injEq] at h
      obtain ⟨rfl, rfl⟩ := h
      exact ⟨_, .simple hmem, rfl⟩
    | @unicode u _ hu =>
      change u.meaning text = .ok (c, rest) at h
      by_cases ht : u.value.IsTrailing
      · rw [UnicodeEscape.meaning_of_isTrailing ht] at h
        simp at h
      by_cases hl : u.value.IsLeading
      · -- The partner is part of the piece.
        obtain ⟨trail, w', hw', ht', hc, rfl⟩ :=
          (UnicodeEscape.meaning_eq_ok_iff_of_isLeading hl).1 h
        have hc' := (CodePoint.val_eq_combine_iff hl ht').1 hc
        exact ⟨w ++ '\\' :: w', .pair hu hw' hl ht' hc', by simp⟩
      · obtain ⟨d, hd⟩ := CodePoint.exists_toChar? hu.toNat_value_le hl ht
        have hval := CodePoint.toChar?_eq_some_iff.1 hd
        rw [UnicodeEscape.meaning_of_val_eq hval, Except.ok.injEq, Prod.mk.injEq] at h
        obtain ⟨rfl, rfl⟩ := h
        exact ⟨w, .scalar hu hval, rfl⟩

/-- The text of a piece is taken whatever stands behind it. -/
theorem readMeaning_of_valid {c : Char} {w : List Char} (hw : Piece.Valid ⟨'\\' :: w, c⟩)
    (rest : List Char) : readMeaning (w ++ rest) = .ok (c, rest) := by
  generalize hp : (⟨'\\' :: w, c⟩ : Piece) = p at hw
  cases hw with
  | plain hne =>
    simp only [Piece.mk.injEq, List.cons.injEq] at hp
    exact absurd hp.1.1.symm hne
  | @simple d meaning hmem =>
    simp only [Piece.mk.injEq, List.cons.injEq, true_and] at hp
    obtain ⟨rfl, rfl⟩ := hp
    have hread : read ([d] ++ rest) = .ok (.simple c, rest) :=
      read_eq_ok_iff.2 ⟨[d], .simple hmem, rfl⟩
    simp only [readMeaning, hread, Escape.meaning]
  | scalar hu hc =>
    simp only [Piece.mk.injEq, List.cons.injEq, true_and] at hp
    obtain ⟨rfl, rfl⟩ := hp
    rw [readMeaning_of_spelled hu, UnicodeEscape.meaning_of_val_eq hc]
  | @pair lead trail w₁ w₂ _ hlead htrail hl ht hc =>
    simp only [Piece.mk.injEq, List.cons.injEq, true_and] at hp
    obtain ⟨rfl, rfl⟩ := hp
    rw [List.append_assoc, readMeaning_of_spelled hlead,
      UnicodeEscape.meaning_eq_ok_iff_of_isLeading hl]
    exact ⟨trail, w₂, htrail, ht, (CodePoint.val_eq_combine_iff hl ht).2 hc, rfl⟩

/-- The reader takes the text behind a backslash exactly when a piece stands
there, and goes on right behind that piece. -/
theorem readMeaning_eq_ok_iff {c : Char} {behind rest : List Char} :
    readMeaning behind = .ok (c, rest) ↔
      ∃ w, Piece.Valid ⟨'\\' :: w, c⟩ ∧ behind = w ++ rest := by
  refine ⟨exists_valid_of_readMeaning, ?_⟩
  intro ⟨w, hw, hbehind⟩
  rw [hbehind]
  exact readMeaning_of_valid hw rest

end Escape

/-!
## What the readers refuse

The failures of the two digit loops in terms of the text in front of them: its
first four characters, or its longest run of digits with what closes the run.
With the surrogates these make up the list `BadTail`, which is all that a reader
can fail at behind a backslash (`readMeaning_eq_error_iff_badTail`).
-/

namespace Hex

/-- A row of digits in front of a character that is none is the longest run. -/
theorem takeWhile_isDigit_append {digits : List Char} (hdigits : ∀ c ∈ digits, IsDigit c)
    {c : Char} (hc : ¬ IsDigit c) (rest : List Char) :
    (digits ++ c :: rest).takeWhile (fun d => decide (IsDigit d)) = digits := by
  rw [List.takeWhile_append_of_pos (by simpa using hdigits),
    List.takeWhile_cons_of_neg (by simpa using hc), List.append_nil]

theorem dropWhile_isDigit_append {digits : List Char} (hdigits : ∀ c ∈ digits, IsDigit c)
    {c : Char} (hc : ¬ IsDigit c) (rest : List Char) :
    (digits ++ c :: rest).dropWhile (fun d => decide (IsDigit d)) = c :: rest := by
  rw [List.dropWhile_append_of_pos (by simpa using hdigits),
    List.dropWhile_cons_of_neg (by simpa using hc)]

/-- The longest run holds digits only. -/
theorem isDigit_of_mem_takeWhile {text : List Char} {c : Char}
    (hc : c ∈ text.takeWhile fun d => decide (IsDigit d)) : IsDigit c := by
  simpa using List.mem_takeWhile_imp hc

end Hex

namespace UnicodeEscape

/-! ### Numbers -/

/-- Four digits are read wherever there are four. -/
theorem exists_readDigits_four_iff {text : List Char} :
    (∃ r, readDigits 4 0 text = .ok r) ↔
      4 ≤ text.length ∧ ∀ c ∈ text.take 4, Hex.IsDigit c := by
  refine ⟨?_, ?_⟩
  · intro ⟨⟨v, rest⟩, h⟩
    obtain ⟨digits, hlen, hdigits, -, rfl⟩ := readDigits_four_eq_ok_iff.1 h
    rw [List.take_left' hlen, List.length_append]
    exact ⟨by omega, hdigits⟩
  · intro ⟨hlen, hdigits⟩
    have hfour : (text.take 4).length = 4 := List.length_take_of_le hlen
    have hlt := Hex.value_lt hdigits
    rw [hfour] at hlt
    refine ⟨(UInt32.ofNat (Hex.value (text.take 4)), text.drop 4),
      readDigits_four_eq_ok_iff.2 ⟨text.take 4, hfour, hdigits, ?_, ?_⟩⟩
    · exact CodePoint.toNat_ofNat_of_le (by omega)
    · exact (List.take_append_drop 4 text).symm

/-- A number in braces is read wherever a run of digits is closed and its value
is not too large. -/
theorem exists_readToBrace_iff {text : List Char} :
    (∃ r, readToBrace 0 0 text = .ok r) ↔
      text.takeWhile (fun c => decide (Hex.IsDigit c)) ≠ [] ∧
      (text.dropWhile fun c => decide (Hex.IsDigit c)).head? = some '}' ∧
      Hex.value (text.takeWhile fun c => decide (Hex.IsDigit c)) ≤ 0x10FFFF := by
  refine ⟨?_, ?_⟩
  · intro ⟨⟨v, rest⟩, h⟩
    obtain ⟨digits, hne, hdigits, -, hmax, rfl⟩ := readToBrace_zero_eq_ok_iff.1 h
    rw [Hex.takeWhile_isDigit_append hdigits Hex.not_isDigit_closingBrace,
      Hex.dropWhile_isDigit_append hdigits Hex.not_isDigit_closingBrace]
    exact ⟨hne, rfl, hmax⟩
  · intro ⟨hne, hclosed, hmax⟩
    obtain ⟨rest, hrest⟩ := List.head?_eq_some_iff.1 hclosed
    refine ⟨(UInt32.ofNat (Hex.value (text.takeWhile fun c => decide (Hex.IsDigit c))), rest),
      readToBrace_zero_eq_ok_iff.2
        ⟨_, hne, fun c hc => Hex.isDigit_of_mem_takeWhile hc, ?_, hmax, ?_⟩⟩
    · exact CodePoint.toNat_ofNat_of_le hmax
    · rw [← hrest]
      exact List.takeWhile_append_dropWhile.symm

/-- The reader of an escape fails where the reader of its number does. -/
theorem read_openingBrace_eq_error_iff {text : List Char} :
    read ('{' :: text) = .error .invalid ↔ ¬ ∃ r, readToBrace 0 0 text = .ok r := by
  rw [read]
  cases readToBrace 0 0 text with
  | error e => cases e; simp
  | ok r => simp

theorem read_eq_error_iff_of_head? {text : List Char} (hhead : text.head? ≠ some '{') :
    read text = .error .invalid ↔ ¬ ∃ r, readDigits 4 0 text = .ok r := by
  rw [read_of_head?_ne_brace hhead]
  cases readDigits 4 0 text with
  | error e => cases e; simp
  | ok r => simp

/-- Behind a `u`, the reader fails at the misspelt numbers of the list. -/
theorem badTail_of_read_eq_error {text : List Char} (h : read text = .error .invalid) :
    BadTail ('u' :: text) := by
  by_cases hhead : text.head? = some '{'
  · obtain ⟨text, rfl⟩ := List.head?_eq_some_iff.1 hhead
    rw [read_openingBrace_eq_error_iff, exists_readToBrace_iff] at h
    by_cases hne : text.takeWhile (fun c => decide (Hex.IsDigit c)) = []
    · exact .noDigits hne
    by_cases hclosed : (text.dropWhile fun c => decide (Hex.IsDigit c)).head? = some '}'
    · exact .tooLarge (Nat.lt_of_not_le fun hmax => h ⟨hne, hclosed, hmax⟩)
    · exact .unclosed hclosed
  · rw [read_eq_error_iff_of_head? hhead, exists_readDigits_four_iff] at h
    exact .fixed hhead h

/-! ### Characters -/

/-- A number that is not too large is refused for being a surrogate without its
partner, and for nothing else. -/
theorem meaning_eq_error_iff {u : UnicodeEscape} {text : List Char}
    (hmax : u.value.toNat ≤ 0x10FFFF) :
    u.meaning text = .error .invalid ↔
      u.value.IsTrailing ∨ u.value.IsLeading ∧ ¬ StartsWithTrailing text := by
  refine ⟨?_, ?_⟩
  · intro h
    by_cases ht : u.value.IsTrailing
    · exact .inl ht
    by_cases hl : u.value.IsLeading
    · refine .inr ⟨hl, ?_⟩
      rintro ⟨trail, w, rest, hw, ht', htext⟩
      -- With a partner there would be a character.
      obtain ⟨c, hc⟩ := CodePoint.exists_toChar?_combine hl ht'
      have hok : u.meaning text = .ok (c, rest) :=
        (meaning_eq_ok_iff_of_isLeading hl).2
          ⟨trail, w, hw, ht', CodePoint.toChar?_eq_some_iff.1 hc, htext⟩
      rw [hok] at h
      exact absurd h (by simp)
    · obtain ⟨c, hc⟩ := CodePoint.exists_toChar? hmax hl ht
      rw [meaning_of_val_eq (CodePoint.toChar?_eq_some_iff.1 hc)] at h
      exact absurd h (by simp)
  · rintro (ht | ⟨hl, htext⟩)
    · exact meaning_of_isTrailing ht text
    · exact meaning_of_not_startsWithTrailing hl htext

end UnicodeEscape

namespace Escape

/-! ### Anything behind a backslash -/

theorem readMeaning_u_of_error {e : EscapeError} {text : List Char}
    (h : UnicodeEscape.read text = .error e) : readMeaning ('u' :: text) = .error e := by
  simp only [readMeaning, read, h]

/-- An opening brace wants a run of digits, a closing brace behind it and a
number that is not too large. -/
theorem readMeaning_openingBrace_of_not {text : List Char}
    (h : ¬ (text.takeWhile (fun c => decide (Hex.IsDigit c)) ≠ [] ∧
      (text.dropWhile fun c => decide (Hex.IsDigit c)).head? = some '}' ∧
      Hex.value (text.takeWhile fun c => decide (Hex.IsDigit c)) ≤ 0x10FFFF)) :
    readMeaning ('u' :: '{' :: text) = .error .invalid := by
  apply readMeaning_u_of_error
  rwa [UnicodeEscape.read_openingBrace_eq_error_iff, UnicodeEscape.exists_readToBrace_iff]

theorem readMeaning_of_simpleChar?_eq_none {c : Char} (hc : c ≠ 'u')
    (hnone : simpleChar? c = none) (rest : List Char) :
    readMeaning (c :: rest) = .error .invalid := by
  rw [readMeaning, read]
  · rw [hnone]
  · exact hc

theorem simpleChar?_eq_none_iff {c : Char} :
    simpleChar? c = none ↔ ∀ meaning, (c, meaning) ∉ simpleMeanings := by
  simp only [Option.eq_none_iff_forall_ne_some, ne_eq, simpleChar?_eq_some_iff]

/-- The reader fails at everything in the list. -/
theorem readMeaning_of_badTail {tail : List Char} (h : BadTail tail) :
    readMeaning tail = .error .invalid := by
  cases h with
  | nothing => rfl
  | unknown hu hmeaning =>
    exact readMeaning_of_simpleChar?_eq_none hu (simpleChar?_eq_none_iff.2 hmeaning) _
  | fixed hhead hdigits =>
    apply readMeaning_u_of_error
    rwa [UnicodeEscape.read_eq_error_iff_of_head? hhead, UnicodeEscape.exists_readDigits_four_iff]
  | noDigits hnil => exact readMeaning_openingBrace_of_not fun h => h.1 hnil
  | unclosed hopen => exact readMeaning_openingBrace_of_not fun h => hopen h.2.1
  | tooLarge hlarge =>
    exact readMeaning_openingBrace_of_not fun h => Nat.not_le_of_lt hlarge h.2.2
  | trailing hw ht =>
    rw [readMeaning_of_spelled hw, UnicodeEscape.meaning_of_isTrailing ht]
  | leading hw hl hrest =>
    rw [readMeaning_of_spelled hw, UnicodeEscape.meaning_of_not_startsWithTrailing hl hrest]

/-- An escape without a meaning is a surrogate without its partner. -/
theorem badTail_of_meaning_eq_error {u : UnicodeEscape} {w rest : List Char} (hw : u.Spelled w)
    (h : u.meaning rest = .error .invalid) : BadTail (w ++ rest) := by
  rcases (UnicodeEscape.meaning_eq_error_iff hw.toNat_value_le).1 h with ht | ⟨hl, hrest⟩
  · exact .trailing hw ht
  · exact .leading hw hl hrest

/-- The list is complete: the reader fails at nothing else. -/
theorem badTail_of_readMeaning_eq_error {tail : List Char}
    (h : readMeaning tail = .error .invalid) : BadTail tail := by
  cases tail with
  | nil => exact .nothing
  | cons c rest =>
    by_cases hu : c = 'u'
    · subst hu
      cases hread : UnicodeEscape.read rest with
      | error e =>
        cases e
        exact UnicodeEscape.badTail_of_read_eq_error hread
      | ok r =>
        obtain ⟨u, behind⟩ := r
        obtain ⟨w, hw, rfl⟩ := UnicodeEscape.read_eq_ok_iff.1 hread
        rw [← List.cons_append, readMeaning_of_spelled hw] at h
        exact badTail_of_meaning_eq_error hw h
    · refine .unknown hu (simpleChar?_eq_none_iff.1 ?_)
      cases hc : simpleChar? c with
      | none => rfl
      | some m =>
        have hw : Spelled (.simple m) [c] := .simple (simpleChar?_eq_some_iff.1 hc)
        have hread : read (c :: rest) = .ok (.simple m, rest) :=
          read_eq_ok_iff.2 ⟨[c], hw, rfl⟩
        rw [readMeaning, hread] at h
        exact absurd h (by simp [meaning])

/-- Behind a backslash the reader fails at the texts in the list, and at no
other. -/
theorem readMeaning_eq_error_iff_badTail {tail : List Char} :
    readMeaning tail = .error .invalid ↔ BadTail tail :=
  ⟨badTail_of_readMeaning_eq_error, readMeaning_of_badTail⟩

end Escape

end GraphqlLiteral
