import GraphqlLiteral.Proofs.Body.Division
import Mathlib

/-!
# The steps of a decoding

What one step does, which decodings the steps come to, and what is known of the
numbers that are read on the way, also by a run that fails later on.
-/

namespace GraphqlLiteral

/-!
## All that a step can do

A step finishes with a body that holds no further backslash, takes in the escape
at the next one, or fails there; `step_cases` says what it does in each case.
`Reached` holds the decodings that the steps come to from the beginning of a
body, those of a run that fails later among them. Each of them has the result of
the whole body still in front of it (`Reached.decode_eq_run`).
-/

namespace Decoding

/-! ### One step -/

theorem not_mem_takeWhile_isPlain (cs : List Char) : '\\' ∉ cs.takeWhile isPlain := by
  intro hmem
  have hplain := List.mem_takeWhile_imp hmem
  exact absurd hplain (by decide)

/-- The plain characters that come next are all there is, or a backslash stands behind
them. -/
theorem plain_or_backslash (cs : List Char) :
    ('\\' ∉ cs ∧ cs.takeWhile isPlain = cs ∧ cs.dropWhile isPlain = []) ∨
    ∃ behind, '\\' ∉ cs.takeWhile isPlain ∧ cs.dropWhile isPlain = '\\' :: behind ∧
      cs = cs.takeWhile isPlain ++ '\\' :: behind := by
  have hplain := not_mem_takeWhile_isPlain cs
  have hsplit : cs.takeWhile isPlain ++ cs.dropWhile isPlain = cs :=
    List.takeWhile_append_dropWhile
  cases hdrop : cs.dropWhile isPlain with
  | nil =>
    rw [hdrop, List.append_nil] at hsplit
    rw [hsplit] at hplain
    exact .inl ⟨hplain, hsplit, rfl⟩
  | cons c behind =>
    have hc : isPlain c = false := by
      have hhead := List.head?_dropWhile_not isPlain cs
      rw [hdrop] at hhead
      simpa using hhead
    obtain rfl : c = '\\' := by simpa [isPlain] using hc
    rw [hdrop] at hsplit
    exact .inr ⟨behind, hplain, rfl, hsplit.symm⟩

/-- Without a backslash a step finishes. -/
theorem step_of_not_mem {d : Decoding} (hplain : '\\' ∉ d.unread) :
    d.step = .ok (.finished (d.written ++ String.ofList d.unread)) := by
  rcases plain_or_backslash d.unread with ⟨-, htake, hdrop⟩ | ⟨behind, -, -, hunread⟩
  · simp only [step, hdrop, htake]
  · rw [hunread] at hplain
    exact absurd (List.mem_append_right _ List.mem_cons_self) hplain

/-- At a backslash a step comes to what is read behind it. -/
theorem step_of_dropWhile {d : Decoding} {behind : List Char}
    (hdrop : d.unread.dropWhile isPlain = '\\' :: behind) :
    d.step = (Escape.readMeaning behind).map fun p =>
      .going ⟨(d.written ++ String.ofList (d.unread.takeWhile isPlain)).push p.1, p.2⟩ := by
  simp only [step, hdrop]
  cases Escape.readMeaning behind with
  | error e => rfl
  | ok p => rfl

/-- All that a step can come to: the end of the body, one escape taken in, or a
backslash behind which the reader fails. -/
theorem step_cases (d : Decoding) :
    ('\\' ∉ d.unread ∧ d.step = .ok (.finished (d.written ++ String.ofList d.unread))) ∨
    (∃ (plain : List Char) (p : Piece) (rest : List Char),
      '\\' ∉ plain ∧ p.Valid ∧ p.isEscape = true ∧ d.unread = plain ++ (p.written ++ rest) ∧
      d.step = .ok (.going ⟨(d.written ++ String.ofList plain).push p.char, rest⟩)) ∨
    ∃ (plain behind : List Char) (e : EscapeError),
      '\\' ∉ plain ∧ d.unread = plain ++ '\\' :: behind ∧
      Escape.readMeaning behind = .error e ∧ d.step = .error e := by
  rcases plain_or_backslash d.unread with ⟨hplain, -, -⟩ | ⟨behind, hplain, hdrop, hunread⟩
  · exact .inl ⟨hplain, step_of_not_mem hplain⟩
  · have hstep := step_of_dropWhile hdrop
    cases hread : Escape.readMeaning behind with
    | error e =>
      rw [hread] at hstep
      exact .inr (.inr ⟨_, behind, e, hplain, hunread, hread, hstep⟩)
    | ok r =>
      obtain ⟨c, rest⟩ := r
      obtain ⟨w, hw, rfl⟩ := Escape.readMeaning_eq_ok_iff.1 hread
      rw [hread] at hstep
      exact .inr (.inl ⟨_, ⟨'\\' :: w, c⟩, rest, hplain, hw, rfl, hunread, hstep⟩)

/-- A step that goes on has taken in one escape behind some plain characters. -/
theorem exists_of_step_eq_going {d next : Decoding} (h : d.step = .ok (.going next)) :
    ∃ (plain : List Char) (p : Piece), '\\' ∉ plain ∧ p.Valid ∧ p.isEscape = true ∧
      d.unread = plain ++ (p.written ++ next.unread) ∧
      next.written = (d.written ++ String.ofList plain).push p.char := by
  rcases d.step_cases with ⟨-, hstep⟩ | ⟨plain, p, rest, hplain, hp, hescape, hunread, hstep⟩ |
    ⟨_, _, _, -, -, -, hstep⟩
  · rw [hstep] at h
    exact absurd h (by simp)
  · rw [hstep] at h
    simp only [Except.ok.injEq, Step.going.injEq] at h
    subst h
    exact ⟨plain, p, hplain, hp, hescape, hunread, rfl⟩
  · rw [hstep] at h
    exact absurd h (by simp)

/-! ### From the beginning of a body -/

/-- The decodings of the body `raw`, each with the number of steps that came
before it. -/
inductive Reached (raw : String) : Nat → Decoding → Prop where
  /-- Nothing is written, and the whole body is unread. -/
  | start : Reached raw 0 ⟨"", raw.toList⟩
  | step {n : Nat} {d next : Decoding} :
      Reached raw n d → d.step = .ok (.going next) → Reached raw (n + 1) next

/-- A decoding on the way comes to what the whole body comes to. -/
theorem Reached.decode_eq_run {raw : String} {n : Nat} {d : Decoding} (h : Reached raw n d) :
    Body.decode raw = d.run := by
  induction h with
  | start => rfl
  | step _ hstep ih => rw [ih, run_of_going hstep]

end Decoding

/-!
## The numbers in a body

What is known of a number once a reader has taken it: it is no larger than the
largest code point, so outside the surrogates it has a character, and with a partner
it makes a pair that has one. The branches of `UnicodeEscape.meaning` for numbers
without a character are therefore never taken. `ReadsNumber` and `Asks` tell at which
places of a body a decoding reads a number and asks for the character of one, also
when it fails later on.
-/

namespace Escape

/-- Behind a `u` the reader gives an escape that writes a number. -/
theorem exists_of_read_u {e : Escape} {behind rest : List Char}
    (h : read ('u' :: behind) = .ok (e, rest)) :
    ∃ u, e = .unicode u ∧ UnicodeEscape.read behind = .ok (u, rest) := by
  simp only [read] at h
  split at h
  · simp at h
  · next u rest' hread =>
    simp only [Except.ok.injEq, Prod.mk.injEq] at h
    obtain ⟨rfl, rfl⟩ := h
    exact ⟨u, rfl, hread⟩

end Escape

namespace UnicodeEscape

variable {u : UnicodeEscape} {behind rest : List Char}

/-- A number that was read is spelled in front of what is left. -/
theorem exists_spelled_of_read (h : read behind = .ok (u, rest)) : ∃ w, u.Spelled w := by
  obtain ⟨w, hw, -⟩ := read_eq_ok_iff.1 h
  exact ⟨_, hw⟩

theorem toNat_value_le_of_read (h : read behind = .ok (u, rest)) :
    u.value.toNat ≤ 0x10FFFF := by
  obtain ⟨w, hw⟩ := exists_spelled_of_read h
  exact hw.toNat_value_le

theorem toNat_value_le_of_read_fixed (h : read behind = .ok (u, rest)) (hform : u.form = .fixed) :
    u.value.toNat ≤ 0xFFFF := by
  obtain ⟨w, hw⟩ := exists_spelled_of_read h
  have hlt := hw.toNat_value_lt_of_fixed hform
  omega

/-- The class of the scalars holds larger words too, but none of them is read. -/
theorem exists_toChar?_of_read (h : read behind = .ok (u, rest)) (hband : u.value.band = .scalar) :
    ∃ c, u.value.toChar? = some c := by
  obtain ⟨hl, ht⟩ := CodePoint.band_eq_scalar_iff.1 hband
  exact CodePoint.exists_toChar? (toNat_value_le_of_read h) hl ht

end UnicodeEscape

namespace Decoding

/-! ### Where a decoding reads numbers -/

/-- The decoding of `raw` comes to the escape `u`, and asks for its character with
`text` behind it. -/
def Asks (raw : String) (u : UnicodeEscape) (text : List Char) : Prop :=
  ∃ (n : Nat) (d : Decoding) (behind : List Char),
    Reached raw n d ∧ d.unread.dropWhile isPlain = '\\' :: 'u' :: behind ∧
      UnicodeEscape.read behind = .ok (u, text)

/-- The decoding of `raw` comes to a backslash and a `u` with `behind` behind them,
and reads a number there. -/
inductive ReadsNumber (raw : String) : List Char → Prop where
  /-- At the next backslash. -/
  | first {n : Nat} {d : Decoding} {behind : List Char} :
      Reached raw n d → d.unread.dropWhile isPlain = '\\' :: 'u' :: behind → ReadsNumber raw behind
  /-- For the partner of a leading surrogate. -/
  | partner {u : UnicodeEscape} {behind : List Char} :
      Asks raw u ('\\' :: 'u' :: behind) → u.value.band = .leading → ReadsNumber raw behind

/-- A step asks for a character where it has read a number. -/
theorem step_of_read {d : Decoding} {behind text : List Char} {u : UnicodeEscape}
    (hdrop : d.unread.dropWhile isPlain = '\\' :: 'u' :: behind)
    (hread : UnicodeEscape.read behind = .ok (u, text)) :
    d.step = (u.meaning text).map fun p =>
      .going ⟨(d.written ++ String.ofList (d.unread.takeWhile isPlain)).push p.1, p.2⟩ := by
  have hmeaning : Escape.readMeaning ('u' :: behind) = u.meaning text := by
    simp only [Escape.readMeaning, Escape.read, hread, Escape.meaning]
  rw [step_of_dropWhile hdrop, hmeaning]

/-- An escape without a character ends the decoding. -/
theorem Asks.decode_eq_error {raw : String} {u : UnicodeEscape} {text : List Char}
    (h : Asks raw u text) (herror : u.meaning text = .error .invalid) :
    Body.decode raw = .error .invalid := by
  obtain ⟨n, d, behind, hd, hdrop, hread⟩ := h
  have hstep : d.step = .error .invalid := by
    rw [step_of_read hdrop hread, herror]
    rfl
  rw [hd.decode_eq_run, run_of_error hstep]

/-- No branch for a number without a character is ever taken, and no word wraps.
Wherever a decoding reads a number, the escape that it gets has one, of at most
10FFFF, or FFFF if it is written as four digits, and with a character if it is no
surrogate. Wherever it puts a pair together, both halves are in their bands, the
arithmetic is exact, and the pair has a character, above U+FFFF. So it fails at a
number only if that is a trailing surrogate, or a leading one without a trailing one
right behind it. -/
theorem numbers_in_range_and_pairs_exact (raw : String) :
    (∀ behind e rest, ReadsNumber raw behind → Escape.read ('u' :: behind) = .ok (e, rest) →
      ∃ u, e = .unicode u ∧ e.codePoint? = some u.value ∧ u.value.toNat ≤ 0x10FFFF ∧
        (u.form = .fixed → u.value.toNat ≤ 0xFFFF) ∧
        (u.value.band = .scalar → ∃ c, u.value.toChar? = some c)) ∧
    (∀ u behind trail rest, Asks raw u ('\\' :: 'u' :: behind) → u.value.band = .leading →
      UnicodeEscape.read behind = .ok (trail, rest) → trail.value.IsTrailing →
      CodePoint.ExactPair u.value trail.value ∧
      0x10000 ≤ (u.value.combine trail.value).toNat ∧
      (u.value.combine trail.value).toNat ≤ 0x10FFFF ∧
      ∃ c, (u.value.combine trail.value).toChar? = some c) ∧
    ∀ u text, Asks raw u text →
      (u.meaning text = .error .invalid ↔
        u.value.IsTrailing ∨ u.value.IsLeading ∧ ¬ StartsWithTrailing text) ∧
      (u.meaning text = .error .invalid → Body.decode raw = .error .invalid) := by
  refine ⟨?_, ?_, ?_⟩
  · intro behind e rest _ hread
    obtain ⟨u, rfl, hnumber⟩ := Escape.exists_of_read_u hread
    exact ⟨u, rfl, rfl, UnicodeEscape.toNat_value_le_of_read hnumber,
      UnicodeEscape.toNat_value_le_of_read_fixed hnumber,
      UnicodeEscape.exists_toChar?_of_read hnumber⟩
  · intro u behind trail rest _ hband _ ht
    have hl := CodePoint.band_eq_leading_iff.1 hband
    obtain ⟨hlow, hhigh⟩ := CodePoint.combine_mem_supplementary hl ht
    exact ⟨CodePoint.exactPair hl ht, hlow, hhigh, CodePoint.exists_toChar?_combine hl ht⟩
  · intro u text hasks
    have hends := hasks.decode_eq_error
    obtain ⟨_, _, _, -, -, hread⟩ := hasks
    exact ⟨UnicodeEscape.meaning_eq_error_iff (UnicodeEscape.toNat_value_le_of_read hread), hends⟩

/-- The two largest halves in two forms, of which the second is read for the first,
and the first half alone behind another escape. -/
theorem numbers_of_largest_pair_and_of_half :
    (ReadsNumber "\\uDBFF\\u\x7b00DfFf\x7d!" ['{', '0', '0', 'D', 'f', 'F', 'f', '}', '!'] ∧
      CodePoint.ExactPair 0xDBFF 0xDFFF ∧ (CodePoint.combine 0xDBFF 0xDFFF).toNat = 0x10FFFF ∧
      ∃ u, Escape.read ['u', '{', '0', '0', 'D', 'f', 'F', 'f', '}', '!'] =
        .ok (.unicode u, ['!']) ∧ u.value.toNat ≤ 0x10FFFF) ∧
    Asks "\\n\\uDBFF" ⟨.fixed, 0xDBFF⟩ [] ∧
      UnicodeEscape.meaning ⟨.fixed, 0xDBFF⟩ [] = .error .invalid ∧
      Body.decode "\\n\\uDBFF" = .error .invalid := by
  obtain ⟨hnumber, hpair, -⟩ := numbers_in_range_and_pairs_exact "\\uDBFF\\u\x7b00DfFf\x7d!"
  obtain ⟨-, -, hfails⟩ := numbers_in_range_and_pairs_exact "\\n\\uDBFF"
  have hasks : Asks "\\uDBFF\\u\x7b00DfFf\x7d!" ⟨.fixed, 0xDBFF⟩
      ['\\', 'u', '{', '0', '0', 'D', 'f', 'F', 'f', '}', '!'] := ⟨_, _, _, .start, rfl, rfl⟩
  have hhalf : Asks "\\n\\uDBFF" ⟨.fixed, 0xDBFF⟩ [] :=
    ⟨1, ⟨"\n", "\\uDBFF".toList⟩, "DBFF".toList, .step .start rfl, rfl, rfl⟩
  have hpartner := ReadsNumber.partner hasks rfl
  obtain ⟨hexact, -, -, -⟩ := hpair _ _ ⟨.braced, 0xDFFF⟩ ['!'] hasks rfl rfl (by decide)
  obtain ⟨u, hu, -, hle, -, -⟩ := hnumber _ (.unicode ⟨.braced, 0xDFFF⟩) ['!'] hpartner rfl
  have herror : UnicodeEscape.meaning ⟨.fixed, 0xDBFF⟩ [] = .error .invalid := by
    refine (hfails _ _ hhalf).1.2 (.inr ⟨by decide, ?_⟩)
    rintro ⟨_, _, _, -, -, htext⟩
    exact absurd htext (by simp)
  refine ⟨⟨hpartner, hexact, rfl, u, ?_, hle⟩, hhalf, herror, (hfails _ _ hhalf).2 herror⟩
  rw [← hu]
  rfl

end Decoding

end GraphqlLiteral
