import GraphqlLiteral.Cli.Command
import GraphqlLiteral.Proofs.Body.Division
import Mathlib

/-!
# Quoted text

A quoted text can be read back in two ways: as a body, which has the text for its
value, and as a part of a line, which tells by itself where it ends.
-/

namespace GraphqlLiteral

/-!
## Quoted text read back

What is written between the quotes of a text is a body of its own. It writes the
text again, piece for character (`division_quotedChar`), with one exception: a
zero character is written in a way that no escape has, and then the body has no
value. So what a run of `decode` shows can be given to it again.
-/

namespace Text

/-! ### One character -/

/-- The quoted form of a character is a piece that writes it. -/
theorem valid_quotedChar (hidden : Char → Bool) {c : Char} (hc : c ≠ '\x00') :
    Piece.Valid ⟨quotedChar hidden c, c⟩ := by
  unfold quotedChar
  split
  · exact absurd rfl hc
  · exact .simple (by decide)
  · exact .simple (by decide)
  · exact .simple (by decide)
  · exact .simple (by decide)
  · exact .simple (by decide)
  · next hbackslash =>
    split
    · -- The digits write the number of a character, so it is not too large.
      have hvalue := Hex.value_toDigits c.toNat
      have hmax := (CodePoint.isValidChar_iff.1 c.valid).1
      refine .scalar (u := ⟨.braced, c.val⟩) (.braced Nat.toDigits_ne_nil
        Hex.isDigit_of_mem_toDigits hvalue.symm ?_) rfl
      rw [hvalue]
      exact hmax
    · exact .plain hbackslash

/-! ### All characters -/

theorem division_quotedChar (hidden : Char → Bool) {cs : List Char} (hcs : '\x00' ∉ cs) :
    Division (cs.flatMap (quotedChar hidden))
      (cs.map fun c => ⟨quotedChar hidden c, c⟩) := by
  refine ⟨?_, ?_⟩
  · intro p hp
    obtain ⟨c, hc, rfl⟩ := List.mem_map.1 hp
    exact valid_quotedChar hidden fun h => hcs (h ▸ hc)
  · rw [List.flatMap_map]

theorem chars?_flatMap_quotedChar (hidden : Char → Bool) {cs : List Char} (hcs : '\x00' ∉ cs) :
    Body.chars? (cs.flatMap (quotedChar hidden)) = some cs := by
  rw [Body.chars?_of_division (division_quotedChar hidden hcs), List.map_map]
  simp [Function.comp_def]

theorem decode_quotedBody (hidden : Char → Bool) {s : String} (hs : '\x00' ∉ s.toList) :
    Body.decode (quotedBody hidden s) = .ok s := by
  rw [Body.decode_eq_ok_iff_chars?, quotedBody, String.toList_ofList]
  exact chars?_flatMap_quotedChar hidden hs

/-- Behind a backslash the digit zero means nothing. -/
theorem badTail_zero (rest : List Char) : BadTail ('0' :: rest) :=
  .unknown (by decide) (by simp [Escape.simpleMeanings])

/-- What stands in front of the first zero character ends with a piece, so the
backslash behind it begins one of its own. -/
theorem decode_quotedBody_of_mem (hidden : Char → Bool) {s : String} (hs : '\x00' ∈ s.toList) :
    Body.decode (quotedBody hidden s) = .error .invalid := by
  obtain ⟨front, behind, hsplit, hfront⟩ := List.eq_append_cons_of_mem hs
  have hzero : quotedChar hidden '\x00' = ['\\', '0'] := rfl
  have hnone := Body.chars?_backslash_of_error
    (Escape.readMeaning_of_badTail (badTail_zero (behind.flatMap (quotedChar hidden))))
  rw [Body.decode_eq_error_iff_chars?, quotedBody, String.toList_ofList, hsplit,
    List.flatMap_append, Body.chars?_append_of_eq_some (chars?_flatMap_quotedChar hidden hfront),
    List.flatMap_cons, hzero, List.cons_append, List.singleton_append, hnone]
  rfl

end Text

/-! ### Arguments -/

namespace Cli

/-- The line for an argument with a value that is shown as `d` in quotes. -/
def valueLine (raw d : String) : String :=
  DecodedArgument.shown raw ++ " => " ++ ("\"" ++ d ++ "\"")

/-- What is shown in quotes for the value of an argument, if it has one. -/
def shownBody (raw : String) : String :=
  match Body.decode raw with
  | .ok value => Text.quotedBody Text.isHidden value
  | .error _ => ""

theorem shownBody_of_decode_eq_ok {raw value : String} (h : Body.decode raw = .ok value) :
    shownBody raw = Text.quotedBody Text.isHidden value := by
  rw [shownBody, h]

/-- The output for arguments that all have a value. -/
theorem decode_of_forall_ok {raws : List String}
    (h : ∀ raw ∈ raws, ∃ value, Body.decode raw = .ok value) :
    decode raws = ⟨.ok, raws.map fun raw => valueLine raw (shownBody raw), []⟩ := by
  have hall : (decodeArguments raws).all DecodedArgument.isOk = true := by
    rw [decodeArguments, List.all_map, List.all_eq_true]
    intro raw hraw
    obtain ⟨value, hvalue⟩ := h raw hraw
    simp [DecodedArgument.isOk, hvalue]
  have hout : (decodeArguments raws).filterMap DecodedArgument.outLine? =
      raws.map fun raw => valueLine raw (shownBody raw) := by
    rw [decodeArguments, List.filterMap_map, List.filterMap_eq_map_iff_forall_eq_some]
    intro raw hraw
    obtain ⟨value, hvalue⟩ := h raw hraw
    simp only [Function.comp_apply, DecodedArgument.outLine?, hvalue, valueLine,
      shownBody_of_decode_eq_ok hvalue]
    rfl
  have herr : (decodeArguments raws).filterMap DecodedArgument.errLine? = [] := by
    rw [decodeArguments, List.filterMap_map, List.filterMap_eq_nil_iff]
    intro raw hraw
    obtain ⟨value, hvalue⟩ := h raw hraw
    simp only [Function.comp_apply, DecodedArgument.errLine?, hvalue]
  simp only [decode, hall, hout, herr, if_true]

end Cli

/-- What is shown in quotes can be decoded again. Whatever characters are hidden,
the text between the quotes is a body with the value that was quoted, unless
that value has a zero character: then it has none. So where no value of a run
has one, a second run takes what the first one has shown for its values, and
shows the same for them. -/
theorem decode_quoted_and_decode_again :
    (∀ (hidden : Char → Bool) (s : String), ∃ d, Text.quoted hidden s = "\"" ++ d ++ "\"" ∧
      ('\x00' ∉ s.toList → Body.decode d = .ok s) ∧
      ('\x00' ∈ s.toList → Body.decode d = .error .invalid)) ∧
    (∀ raws : List String,
      (∀ raw ∈ raws, ∃ value, Body.decode raw = .ok value ∧ '\x00' ∉ value.toList) →
      ∃ ds, ds.map Body.decode = raws.map Body.decode ∧
        Cli.decode raws = ⟨.ok, List.zipWith Cli.valueLine raws ds, []⟩ ∧
        Cli.decode ds = ⟨.ok, List.zipWith Cli.valueLine ds ds, []⟩) := by
  refine ⟨?_, ?_⟩
  · intro hidden s
    exact ⟨_, rfl, Text.decode_quotedBody hidden, Text.decode_quotedBody_of_mem hidden⟩
  · intro raws h
    have hsame : ∀ raw ∈ raws, Body.decode (Cli.shownBody raw) = Body.decode raw := by
      intro raw hraw
      obtain ⟨value, hvalue, hzero⟩ := h raw hraw
      rw [Cli.shownBody_of_decode_eq_ok hvalue, Text.decode_quotedBody _ hzero, hvalue]
    have hvalues : ∀ raw ∈ raws, ∃ value, Body.decode raw = .ok value := by
      intro raw hraw
      obtain ⟨value, hvalue, -⟩ := h raw hraw
      exact ⟨value, hvalue⟩
    have hagain : ∀ d ∈ raws.map Cli.shownBody, ∃ value, Body.decode d = .ok value := by
      simp only [List.forall_mem_map]
      intro raw hraw
      rw [hsame raw hraw]
      exact hvalues raw hraw
    refine ⟨raws.map Cli.shownBody, ?_, ?_, ?_⟩
    · rw [List.map_map]
      exact List.map_congr_left hsame
    · rw [Cli.decode_of_forall_ok hvalues, List.zipWith_map_right, List.zipWith_self]
    · -- A value is shown the same way each time.
      rw [Cli.decode_of_forall_ok hagain, List.zipWith_self]
      congr 1
      apply List.map_congr_left
      simp only [List.forall_mem_map]
      intro raw hraw
      have hshown : Cli.shownBody (Cli.shownBody raw) = Cli.shownBody raw := by
        rw [Cli.shownBody, hsame raw hraw, Cli.shownBody]
      rw [hshown]

/-- A delete character and a quote, then a zero character, and a run over two
arguments. -/
theorem decode_again_two_arguments :
    '\x00' ∉ "\x7f\"".toList ∧ '\x00' ∈ "\n\x00".toList ∧
    (∃ d, Text.quoted Text.isHidden "\x7f\"" = "\"" ++ d ++ "\"" ∧
      Body.decode d = .ok "\x7f\"") ∧
    (∃ d, Text.quoted Text.isHidden "\n\x00" = "\"" ++ d ++ "\"" ∧
      Body.decode d = .error .invalid) ∧
    ∃ ds, ds.map Body.decode = [.ok "\x7f", .ok "🍺"] ∧
      Cli.decode ["\\u007F", "\\uD83C\\uDF7A"] =
        ⟨.ok, List.zipWith Cli.valueLine ["\\u007F", "\\uD83C\\uDF7A"] ds, []⟩ ∧
      Cli.decode ds = ⟨.ok, List.zipWith Cli.valueLine ds ds, []⟩ := by
  obtain ⟨hquoted, hagain⟩ := decode_quoted_and_decode_again
  obtain ⟨d, hd, hok, -⟩ := hquoted Text.isHidden "\x7f\""
  obtain ⟨d', hd', -, herror⟩ := hquoted Text.isHidden "\n\x00"
  have hfirst : Body.decode "\\u007F" = .ok "\x7f" := by cbv
  have hsecond : Body.decode "\\uD83C\\uDF7A" = .ok "🍺" := by cbv
  obtain ⟨ds, hds, hout, hback⟩ := hagain ["\\u007F", "\\uD83C\\uDF7A"] (by
    simp only [List.forall_mem_cons]
    exact ⟨⟨_, hfirst, by decide⟩, ⟨_, hsecond, by decide⟩, by simp⟩)
  rw [List.map_cons, List.map_singleton, hfirst, hsecond] at hds
  exact ⟨by decide, by decide, ⟨d, hd, hok (by decide)⟩, ⟨d', hd', herror (by decide)⟩, ds, hds,
    hout, hback⟩

/-!
## Quoted text among other text

The quoted form of a text tells by itself where it ends: its first quote that is
not part of an escape is the last one. So a quoted text at the front of another
text can be told from what stands behind it, whatever that is
(`quoted_append_inj`). It also keeps to one line (`lf_not_mem_quoted`). Both hold
whatever characters are hidden.
-/

namespace Text

variable {hidden : Char → Bool}

/-! ### One character -/

/-- The quoted form of a character is the character itself, which is then no quote
and no line feed, or it begins with a backslash and keeps to one line. -/
theorem quotedChar_plain_or_escape (hidden : Char → Bool) (c : Char) :
    (quotedChar hidden c = [c] ∧ c ≠ '"' ∧ c ≠ '\n') ∨
      ∃ w, quotedChar hidden c = '\\' :: w ∧ '\n' ∉ w := by
  unfold quotedChar
  split
  · exact .inr ⟨_, rfl, by simp⟩
  · exact .inr ⟨_, rfl, by simp⟩
  · exact .inr ⟨_, rfl, by simp⟩
  · exact .inr ⟨_, rfl, by simp⟩
  · exact .inr ⟨_, rfl, by simp⟩
  · exact .inr ⟨_, rfl, by simp⟩
  · next hlf hquote _ =>
    split
    · refine .inr ⟨_, rfl, ?_⟩
      have hdigits : '\n' ∉ Nat.toDigits 16 c.toNat := fun hmem =>
        absurd (Hex.isDigit_of_mem_toDigits _ hmem) (by decide)
      simp [hdigits]
    · exact .inl ⟨rfl, hquote, hlf⟩

theorem quotedChar_append_ne_quote (c : Char) (x y : List Char) :
    quotedChar hidden c ++ x ≠ '"' :: y := by
  rcases quotedChar_plain_or_escape hidden c with ⟨hc, hquote, -⟩ | ⟨w, hw, -⟩
  · rw [hc]
    exact fun h => hquote (List.cons.inj h).1
  · rw [hw]
    exact fun h => absurd (List.cons.inj h).1 (by decide)

/-- No piece begins with the quoted form of a zero character. -/
theorem quotedChar_zero_append_ne {p : Piece} (hp : p.Valid) (x y : List Char) :
    quotedChar hidden '\x00' ++ x ≠ p.written ++ y := by
  obtain ⟨written, m⟩ := p
  show '\\' :: '0' :: x ≠ written ++ y
  rcases hp.plain_or_escape with ⟨c, hc, hpc⟩ | ⟨w, rfl⟩
  · obtain ⟨rfl, rfl⟩ := Piece.mk.inj hpc
    exact fun h => hc (List.cons.inj h).1.symm
  · -- Behind its backslash the reader fails, and behind that of a piece it does not.
    intro h
    have hbehind : '0' :: x = w ++ y := (List.cons.inj h).2
    have hbad := Escape.readMeaning_of_badTail (badTail_zero x)
    rw [hbehind, Escape.readMeaning_of_valid hp] at hbad
    exact absurd hbad (by simp)

/-- The quoted forms of two characters at the front of one text are the same. All
but that of a zero character are pieces, and no piece begins another one. -/
theorem quotedChar_append_inj {c d : Char} {x y : List Char}
    (h : quotedChar hidden c ++ x = quotedChar hidden d ++ y) : c = d ∧ x = y := by
  by_cases hc : c = '\x00'
  · subst hc
    by_cases hd : d = '\x00'
    · subst hd
      exact ⟨rfl, List.append_cancel_left h⟩
    · exact absurd h (quotedChar_zero_append_ne (valid_quotedChar hidden hd) x y)
  · by_cases hd : d = '\x00'
    · subst hd
      exact absurd h.symm (quotedChar_zero_append_ne (valid_quotedChar hidden hc) y x)
    · obtain ⟨hpiece, hrest⟩ :=
        (valid_quotedChar hidden hc).eq_of_append_eq (valid_quotedChar hidden hd) h
      exact ⟨congrArg Piece.char hpiece, hrest⟩

/-! ### All characters -/

theorem flatMap_quotedChar_append_inj {cs ds x y : List Char}
    (h : cs.flatMap (quotedChar hidden) ++ '"' :: x =
      ds.flatMap (quotedChar hidden) ++ '"' :: y) : cs = ds ∧ x = y := by
  induction cs generalizing ds with
  | nil =>
    cases ds with
    | nil => exact ⟨rfl, (List.cons.inj h).2⟩
    | cons d ds =>
      rw [List.flatMap_cons, List.append_assoc] at h
      exact absurd h.symm (quotedChar_append_ne_quote d _ _)
  | cons c cs ih =>
    rw [List.flatMap_cons, List.append_assoc] at h
    cases ds with
    | nil => exact absurd h (quotedChar_append_ne_quote c _ _)
    | cons d ds =>
      rw [List.flatMap_cons, List.append_assoc] at h
      obtain ⟨rfl, hbehind⟩ := quotedChar_append_inj h
      obtain ⟨rfl, hrest⟩ := ih hbehind
      exact ⟨rfl, hrest⟩

theorem toList_quoted (hidden : Char → Bool) (s : String) :
    (quoted hidden s).toList = '"' :: (s.toList.flatMap (quotedChar hidden) ++ ['"']) := by
  simp [quoted, quotedBody]

/-- A quoted text at the front of a text is determined by that text, and so is
what stands behind it. -/
theorem quoted_append_inj {s t : String} {x y : List Char}
    (h : (quoted hidden s).toList ++ x = (quoted hidden t).toList ++ y) : s = t ∧ x = y := by
  rw [toList_quoted, toList_quoted, List.cons_append, List.cons_append, List.append_assoc,
    List.append_assoc] at h
  obtain ⟨hchars, hrest⟩ := flatMap_quotedChar_append_inj (List.cons.inj h).2
  exact ⟨String.toList_inj.1 hchars, hrest⟩

theorem lf_not_mem_quoted (s : String) : '\n' ∉ (quoted hidden s).toList := by
  have hbody : '\n' ∉ s.toList.flatMap (quotedChar hidden) := by
    rw [List.mem_flatMap]
    rintro ⟨c, -, hc⟩
    rcases quotedChar_plain_or_escape hidden c with ⟨heq, -, hlf⟩ | ⟨w, heq, hw⟩
    · rw [heq] at hc
      exact hlf (List.mem_singleton.1 hc).symm
    · rw [heq] at hc
      exact hw ((List.mem_cons.1 hc).resolve_left (by decide))
  rw [toList_quoted]
  simp [hbody]

end Text

end GraphqlLiteral
