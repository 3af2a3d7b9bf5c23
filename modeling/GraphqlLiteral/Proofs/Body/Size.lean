import GraphqlLiteral.Proofs.Body.Located
import GraphqlLiteral.Proofs.Body.Steps
import GraphqlLiteral.Proofs.Text.Lines
import Mathlib

/-!
# Values and the size of their bodies

Decoding never lengthens a body, and leaves as it is only what has no escape.
-/

namespace GraphqlLiteral

/-!
## Decoding never lengthens a body

An escape is at least one byte longer than the character that it writes, in any
of its spellings, and a plain character is as long as itself. So a value is
shorter than its body by one byte for each escape at least, and by one character
(`Division.sum_char_add_le`). The steps of a run keep the same balance between
what is written and what is unread (`Decoding.Reached.size_add_le`), so a buffer
of the size of the body is large enough at every moment.
-/

namespace Text

theorem byteLength_eq_sum (cs : List Char) : byteLength cs = (cs.map Char.utf8Size).sum := by
  induction cs with
  | nil => simp
  | cons c cs ih => rw [byteLength_cons, ih, List.map_cons, List.sum_cons]

theorem length_le_byteLength (cs : List Char) : cs.length ≤ byteLength cs := by
  induction cs with
  | nil => simp
  | cons c cs ih =>
    have hc := c.utf8Size_pos
    rw [List.length_cons, byteLength_cons]
    omega

end Text

/-! ### The size of a piece -/

theorem Escape.utf8Size_meaning {c meaning : Char} (h : (c, meaning) ∈ simpleMeanings) :
    meaning.utf8Size = 1 := by
  have hall : ∀ p ∈ simpleMeanings, p.2.utf8Size = 1 := by decide
  exact hall _ h

namespace Piece.Valid

/-- An escape is two characters long, and five if it writes a number. -/
theorem length_cases {p : Piece} (hp : p.Valid) (hescape : p.isEscape = true) :
    (p.written.length = 2 ∧ p.char.utf8Size = 1) ∨ 5 ≤ p.written.length := by
  cases hp with
  | plain hc =>
    rw [isEscape_plain hc] at hescape
    exact absurd hescape Bool.false_ne_true
  | simple hmeaning => exact .inl ⟨rfl, Escape.utf8Size_meaning hmeaning⟩
  | scalar hw _ =>
    have hlen := hw.four_le_length
    refine .inr ?_
    rw [List.length_cons]
    omega
  | pair hlead _ _ _ _ =>
    have hlen := hlead.four_le_length
    refine .inr ?_
    rw [List.length_cons, List.length_append]
    omega

/-- No character takes up as many bytes as an escape for it. -/
theorem utf8Size_lt_byteLength {p : Piece} (hp : p.Valid) (hescape : p.isEscape = true) :
    p.char.utf8Size < Text.byteLength p.written := by
  have hbytes := Text.length_le_byteLength p.written
  have hfour := p.char.utf8Size_le_four
  rcases hp.length_cases hescape with ⟨hlen, hone⟩ | hlen <;> omega

theorem one_lt_length {p : Piece} (hp : p.Valid) (hescape : p.isEscape = true) :
    1 < p.written.length := by
  rcases hp.length_cases hescape with ⟨hlen, -⟩ | hlen <;> omega

end Piece.Valid

/-! ### The size of a row of pieces -/

namespace Division

variable {raw : List Char} {ps : List Piece}

/-- Under any measure of characters that finds each escape larger than its
character, the pieces of a body are larger than their characters, by one for each
escape at least. -/
theorem sum_char_add_le (size : Char → Nat)
    (hsize : ∀ p : Piece, p.Valid → p.isEscape = true → size p.char < (p.written.map size).sum)
    (h : Division raw ps) :
    ((ps.map Piece.char).map size).sum + ps.countP Piece.isEscape ≤ (raw.map size).sum := by
  induction h using Division.along with
  | nil => simp
  | cons p rest ps hp _ ih =>
    rw [List.map_cons, List.map_cons, List.sum_cons, List.map_append, List.sum_append]
    cases hescape : p.isEscape with
    | true =>
      have hpiece := hsize p hp hescape
      rw [List.countP_cons_of_pos hescape]
      omega
    | false =>
      obtain ⟨c, -, rfl⟩ := hp.eq_of_isEscape_eq_false hescape
      rw [List.countP_cons_of_neg (by simp [hescape])]
      simp only [List.map_cons, List.map_nil, List.sum_cons, List.sum_nil]
      omega

/-- In bytes. -/
theorem byteLength_char_add_le (h : Division raw ps) :
    Text.byteLength (ps.map Piece.char) + ps.countP Piece.isEscape ≤ Text.byteLength raw := by
  rw [Text.byteLength_eq_sum, Text.byteLength_eq_sum]
  refine h.sum_char_add_le Char.utf8Size ?_
  intro p hp hescape
  rw [← Text.byteLength_eq_sum]
  exact hp.utf8Size_lt_byteLength hescape

/-- In characters. -/
theorem length_char_add_le (h : Division raw ps) :
    (ps.map Piece.char).length + ps.countP Piece.isEscape ≤ raw.length := by
  have hsum := h.sum_char_add_le (fun _ => 1) fun p hp hescape => by
    simpa using hp.one_lt_length hescape
  simpa only [List.map_const', List.sum_replicate, smul_eq_mul, mul_one] using hsum

/-- A backslash is in no piece but an escape. -/
theorem countP_isEscape_pos (h : Division raw ps) (hmem : '\\' ∈ raw) :
    0 < ps.countP Piece.isEscape := by
  rw [← h.written, List.mem_flatMap] at hmem
  obtain ⟨p, hp, hslash⟩ := hmem
  rw [List.countP_pos_iff]
  refine ⟨p, hp, ?_⟩
  by_contra hescape
  obtain ⟨c, hc, rfl⟩ :=
    (h.valid p hp).eq_of_isEscape_eq_false (Bool.eq_false_of_not_eq_true hescape)
  exact hc (List.mem_singleton.1 hslash).symm

end Division

/-! ### The size of a decoding -/

namespace Decoding

/-- The bytes written and the bytes unread. -/
def size (d : Decoding) : Nat := d.written.utf8ByteSize + Text.byteLength d.unread

/-- What is written in the course of a step, when the plain characters have been
copied and the escape behind them has not been read. -/
def copied (d : Decoding) : String := d.written ++ String.ofList (d.unread.takeWhile isPlain)

/-- To copy leaves the sum as it is, so the copy is no larger. -/
theorem utf8ByteSize_copied_le_size (d : Decoding) : d.copied.utf8ByteSize ≤ d.size := by
  have hsplit : d.unread.takeWhile isPlain ++ d.unread.dropWhile isPlain = d.unread :=
    List.takeWhile_append_dropWhile
  have hbytes := congrArg Text.byteLength hsplit
  rw [Text.byteLength_append] at hbytes
  rw [copied, String.utf8ByteSize_append, size]
  show _ + Text.byteLength (d.unread.takeWhile isPlain) ≤ _
  omega

/-- A step takes away one byte at least. -/
theorem size_lt_of_step_eq_going {d next : Decoding} (h : d.step = .ok (.going next)) :
    next.size < d.size := by
  obtain ⟨plain, p, -, hp, hescape, hunread, hwritten⟩ := exists_of_step_eq_going h
  have hpiece := hp.utf8Size_lt_byteLength hescape
  have hplain : (String.ofList plain).utf8ByteSize = Text.byteLength plain := rfl
  rw [size, size, hunread, hwritten, String.utf8ByteSize_push, String.utf8ByteSize_append, hplain,
    Text.byteLength_append, Text.byteLength_append]
  omega

/-- So every decoding on the way is smaller than the body, by the number of steps
that came before it at least. -/
theorem Reached.size_add_le {raw : String} {n : Nat} {d : Decoding} (h : Reached raw n d) :
    d.size + n ≤ raw.utf8ByteSize := by
  induction h with
  | start =>
    rw [size, Text.byteLength_toList]
    simp
  | step _ hstep ih =>
    have hlt := size_lt_of_step_eq_going hstep
    omega

end Decoding

namespace Body

/-- The pieces of a body with a value write that value. -/
theorem map_char_eq_of_division {raw s : String} {ps : List Piece} (hs : decode raw = .ok s)
    (hps : Division raw.toList ps) : ps.map Piece.char = s.toList := by
  have hchars := decode_eq_ok_iff_chars?.1 hs
  rw [chars?_of_division hps, Option.some.injEq] at hchars
  exact hchars

/-- A value is never larger than its body. For each escape it is one byte and one
character shorter at least, so it has the size of the body only if there is none.
During a run, what is written and what is unread are together no larger than the
body, one byte being lost with each step at least, and what a step copies in
between fits as well; it makes no difference whether the run fails later on. -/
theorem value_and_decoding_fit_body (raw : String) :
    (∀ s ps, decode raw = .ok s → Division raw.toList ps →
      s.utf8ByteSize + ps.countP Piece.isEscape ≤ raw.utf8ByteSize ∧
      s.length + ps.countP Piece.isEscape ≤ raw.length ∧
      (s.utf8ByteSize = raw.utf8ByteSize ↔ '\\' ∉ raw.toList)) ∧
    ∀ n d, Decoding.Reached raw n d →
      decode raw = d.run ∧
      d.written.utf8ByteSize + Text.byteLength d.unread + n ≤ raw.utf8ByteSize ∧
      d.copied.utf8ByteSize ≤ raw.utf8ByteSize := by
  refine ⟨?_, ?_⟩
  · intro s ps hs hps
    have hchars := map_char_eq_of_division hs hps
    have hbytes := hps.byteLength_char_add_le
    have hlength := hps.length_char_add_le
    rw [hchars, Text.byteLength_toList, Text.byteLength_toList] at hbytes
    rw [hchars, String.length_toList, String.length_toList] at hlength
    refine ⟨hbytes, hlength, ?_, ?_⟩
    · intro heq hmem
      have hpos := hps.countP_isEscape_pos hmem
      omega
    · intro hmem
      have hself := chars?_of_not_mem hmem
      rw [decode_eq_ok_iff_chars?.1 hs, Option.some.injEq, String.toList_inj] at hself
      rw [hself]
  · intro n d hd
    have hsize := hd.size_add_le
    have hcopied := d.utf8ByteSize_copied_le_size
    rw [Decoding.size] at hsize hcopied
    refine ⟨hd.decode_eq_run, hsize, ?_⟩
    omega

/-- A pair in two forms behind a plain character, and a run that fails behind its
first escape; that one loses no more than the one byte that it has to. -/
theorem fit_of_mixed_pair_and_of_failing_run :
    let pair : Piece := ⟨"\\uD83D\\u\x7bDE00\x7d".toList, '😀'⟩
    (decode "ß\\uD83D\\u\x7bDE00\x7d" = .ok "ß😀" ∧
      Division "ß\\uD83D\\u\x7bDE00\x7d".toList [⟨['ß'], 'ß'⟩, pair] ∧
      "ß😀".utf8ByteSize + [⟨['ß'], 'ß'⟩, pair].countP Piece.isEscape ≤
        "ß\\uD83D\\u\x7bDE00\x7d".utf8ByteSize) ∧
    Decoding.Reached "a\\nb\\q" 1 ⟨"a\n", ['b', '\\', 'q']⟩ ∧
      decode "a\\nb\\q" = .error .invalid ∧
      "a\n".utf8ByteSize + Text.byteLength ['b', '\\', 'q'] + 1 ≤ "a\\nb\\q".utf8ByteSize ∧
      "a\n".utf8ByteSize + Text.byteLength ['b', '\\', 'q'] + 1 = "a\\nb\\q".utf8ByteSize := by
  intro pair
  have hs : decode "ß\\uD83D\\u\x7bDE00\x7d" = .ok "ß😀" := by cbv
  have hlead : UnicodeEscape.Spelled ⟨.fixed, 0xD83D⟩ ['u', 'D', '8', '3', 'D'] :=
    UnicodeEscape.spelled_of_read (by cbv)
  have htrail : UnicodeEscape.Spelled ⟨.braced, 0xDE00⟩ ['u', '{', 'D', 'E', '0', '0', '}'] :=
    UnicodeEscape.spelled_of_read (by cbv)
  have hpair : pair.Valid := .pair hlead htrail (by decide) (by decide) (by decide)
  have hps : Division "ß\\uD83D\\u\x7bDE00\x7d".toList [⟨['ß'], 'ß'⟩, pair] :=
    ⟨by simpa using ⟨.plain (by decide), hpair⟩, by cbv⟩
  have hreached : Decoding.Reached "a\\nb\\q" 1 ⟨"a\n", ['b', '\\', 'q']⟩ :=
    .step .start rfl
  obtain ⟨hvalue, -⟩ := value_and_decoding_fit_body "ß\\uD83D\\u\x7bDE00\x7d"
  obtain ⟨-, hrun⟩ := value_and_decoding_fit_body "a\\nb\\q"
  exact ⟨⟨hs, hps, (hvalue _ _ hs hps).1⟩, hreached, by cbv, (hrun 1 _ hreached).2.1, by decide⟩

/-!
## Values that are their bodies

`Body.value` spares a body without a backslash the decoding, and gives the text
that decoding would have given (`map_text_value`). These bodies are also the only
ones that decoding leaves as they are (`decode_eq_ok_self_iff`): an escape makes a
value shorter than its body. So decoding is not idempotent, and a value that
holds a backslash is not its own value again.
-/

/-- With or without a copy, the text is the same. -/
theorem map_text_value (raw : String) : (value raw).map Value.text = decode raw := by
  cases hd : decode raw with
  | error e =>
    rw [value_of_decode_eq_error hd]
    rfl
  | ok s =>
    rw [value_of_decode_eq_ok hd]
    cases hescape : hasEscape raw with
    | true => rfl
    | false =>
      -- The body is spared the decoding, which would not have changed it.
      have hself := decode_of_hasEscape_eq_false hescape
      rw [hd] at hself
      rw [Except.ok.inj hself]
      rfl

/-- A verbatim value is the body itself, and the body needs no decoding. -/
theorem value_eq_ok_verbatim_iff {raw text : String} :
    value raw = .ok (.verbatim text) ↔ '\\' ∉ raw.toList ∧ text = raw := by
  rw [← hasEscape_iff, Bool.not_eq_true]
  cases hescape : hasEscape raw with
  | false =>
    rw [value_of_decode_eq_ok (decode_of_hasEscape_eq_false hescape), hescape]
    simp [eq_comm]
  | true =>
    cases hd : decode raw with
    | error e => simp [value_of_decode_eq_error hd]
    | ok s => simp [value_of_decode_eq_ok hd, hescape]

/-- The fixed points of decoding: each escape takes a byte away, so a body with
one is never its own value. -/
theorem decode_eq_ok_self_iff {raw : String} : decode raw = .ok raw ↔ '\\' ∉ raw.toList := by
  refine ⟨?_, ?_⟩
  · intro hself hmem
    obtain ⟨ps, hps⟩ := exists_division_of_chars? (decode_eq_ok_iff_chars?.1 hself)
    have hchars := map_char_eq_of_division hself hps
    have hbytes := hps.byteLength_char_add_le
    have hpos := hps.countP_isEscape_pos hmem
    rw [hchars] at hbytes
    omega
  · intro hmem
    rw [decode_eq_ok_iff_chars?]
    exact chars?_of_not_mem hmem

/-- The short cut gives what decoding gives, value or failure. It gives the body
itself, and nothing else without a copy, exactly where there is no backslash, and
these bodies are exactly those that decoding leaves as they are. Hence to decode
a value again changes nothing exactly if the value holds no backslash. -/
theorem value_agrees_and_verbatim_iff_fixed (raw : String) :
    (value raw).map Value.text = decode raw ∧
    ((value raw).map Value.isVerbatim = .ok true ↔ '\\' ∉ raw.toList) ∧
    (decode raw = .ok raw ↔ '\\' ∉ raw.toList) ∧
    (∀ text, value raw = .ok (.verbatim text) → text = raw) ∧
    ∀ s, decode raw = .ok s → (decode s = decode raw ↔ '\\' ∉ s.toList) := by
  refine ⟨map_text_value raw, ?_, decode_eq_ok_self_iff, ?_, ?_⟩
  · have hverbatim : (value raw).map Value.isVerbatim = .ok true ↔
        ∃ text, value raw = .ok (.verbatim text) := by
      cases value raw with
      | error e => simp [Except.map]
      | ok v => cases v <;> simp [Except.map, Value.isVerbatim]
    simp only [hverbatim, value_eq_ok_verbatim_iff, exists_and_left, exists_eq, and_true]
  · intro text h
    exact (value_eq_ok_verbatim_iff.1 h).2
  · intro s hs
    rw [hs]
    exact decode_eq_ok_self_iff

/-- A body without an escape, one that writes a backslash in front of an `n`, and
the value of that one, which is a line feed when decoded again. -/
theorem verbatim_and_decoded_twice :
    value "n" = .ok (.verbatim "n") ∧ decode "n" = .ok "n" ∧
    decode "\\\\n" = .ok "\\n" ∧ decode "\\n" = .ok "\n" ∧ decode "\\n" ≠ decode "\\\\n" := by
  have hn : value "n" = .ok (.verbatim "n") := by cbv
  have hs : decode "\\\\n" = .ok "\\n" := by cbv
  obtain ⟨-, -, hfixed, -, -⟩ := value_agrees_and_verbatim_iff_fixed "n"
  obtain ⟨-, -, -, -, hagain⟩ := value_agrees_and_verbatim_iff_fixed "\\\\n"
  refine ⟨hn, hfixed.2 (by decide), hs, by cbv, ?_⟩
  intro hsame
  exact (hagain _ hs).1 hsame (by decide)

end Body

end GraphqlLiteral
