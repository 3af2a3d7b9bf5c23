import GraphqlLiteral.Cli.Command
import GraphqlLiteral.Proofs.Body.Separator
import GraphqlLiteral.Proofs.Report.BadLines
import Mathlib

/-!
# One check, three ways

A document of bodies can be checked line by line, decoded as one body, or given
to the program as arguments, and the bodies without a value are the same each time.
-/

namespace GraphqlLiteral

/-!
## A document as one body

A document can be decoded line by line or as a single body, and the two come to
the same: a check finds no bad line exactly when the document decodes as a
whole, and then its value is that of its lines, each with its own ending
(`isClean_iff_decode_and_decode_eq_decodeLines`). No escape and no pair reaches
over a line break, and a carriage return in front of a line feed makes no
difference to what stands before it.
-/

namespace Body

/-- Decodes a document line by line. The endings stay as they are. -/
def decodeLines : List Text.Line → Except EscapeError String
  | [] => .ok ""
  | line :: lines =>
    match decode line.content with
    | .error e => .error e
    | .ok value =>
      match decodeLines lines with
      | .error e => .error e
      | .ok rest => .ok (value ++ String.ofList line.ending.chars ++ rest)

/-- A document decodes line by line exactly when each of its lines does. -/
theorem exists_decodeLines_iff (lines : List Text.Line) :
    (∃ s, decodeLines lines = .ok s) ↔ ∀ line ∈ lines, ∃ v, decode line.content = .ok v := by
  induction lines with
  | nil => simp [decodeLines]
  | cons line lines ih =>
    rw [List.forall_mem_cons, ← ih, decodeLines]
    cases decode line.content with
    | error e => simp
    | ok v =>
      cases decodeLines lines with
      | error e => simp
      | ok s => simp

/-- The value of a line with its ending, as a row of characters. -/
def lineChars? (line : Text.Line) : Option (List Char) :=
  (chars? line.content.toList).map (· ++ line.ending.chars)

theorem chars_decodeLines_cons (line : Text.Line) (lines : List Text.Line) :
    (decodeLines (line :: lines)).toOption.map String.toList =
      (lineChars? line).bind fun u =>
        ((decodeLines lines).toOption.map String.toList).map (u ++ ·) := by
  rw [lineChars?, chars?, String.ofList_toList, decodeLines]
  cases decode line.content with
  | error e => rfl
  | ok u =>
    cases decodeLines lines with
    | error e => rfl
    | ok v => simp [Except.toOption]

/-- To take the ending off a line and to put it back changes nothing. The
carriage return, where there is one, stands for itself. -/
theorem lineChars?_ofSegment_lf (a : List Char) :
    lineChars? (Text.Line.ofSegment (a ++ ['\n'])) = (chars? a).map (· ++ ['\n']) := by
  rw [Text.Line.ofSegment, if_pos List.getLast?_concat, List.dropLast_concat]
  by_cases hcr : a.getLast? = some '\r'
  · obtain ⟨content, rfl⟩ := List.getLast?_eq_some_iff.1 hcr
    rw [if_pos hcr, List.dropLast_concat, lineChars?, String.toList_ofList,
      chars?_append_separator_singleton Escape.separates_cr, Option.map_map]
    simp [Function.comp_def, Text.LineEnding.chars]
  · rw [if_neg hcr, lineChars?, String.toList_ofList]
    rfl

/-- A last line without a line feed is all content. -/
theorem lineChars?_ofSegment_last {a : List Char} (ha : '\n' ∉ a) :
    lineChars? (Text.Line.ofSegment a) = chars? a := by
  have hlast : a.getLast? ≠ some '\n' := fun h => ha (List.mem_of_getLast? h)
  rw [Text.Line.ofSegment, if_neg hlast, lineChars?, String.toList_ofList]
  simp [Text.LineEnding.chars]

/-- The pieces of a text decode one by one to what the text decodes to. -/
theorem chars_decodeLines_segments (cs : List Char) :
    (decodeLines ((Text.segments cs).map Text.Line.ofSegment)).toOption.map String.toList =
      chars? cs := by
  induction cs using Text.line_induction with
  | nil => simp [decodeLines, Except.toOption]
  | last a hne ha =>
    rw [Text.segments_of_not_mem hne ha, List.map_singleton, chars_decodeLines_cons,
      lineChars?_ofSegment_last ha]
    simp [decodeLines, Except.toOption]
  | line a b ha ih =>
    -- The line feed stands for itself and parts the first line from the rest.
    rw [Text.segments_append_lf ha, List.map_cons, chars_decodeLines_cons, ih,
      lineChars?_ofSegment_lf, chars?_append_separator Escape.separates_lf, Option.bind_map]
    simp

end Body

namespace Report

theorem isClean_iff (source : String) :
    (ofSource source).isClean = true ↔
      ∀ line ∈ Text.lines source, ∃ v, Body.decode line.content = .ok v := by
  rw [isClean, Array.isEmpty_iff, ← Array.toList_eq_nil_iff, badLines_ofSource,
    List.eq_nil_iff_forall_not_mem]
  refine ⟨?_, ?_⟩
  · intro h line hline
    obtain ⟨i, hi⟩ := List.mem_iff_getElem?.1 hline
    -- A line that does not decode would be told.
    cases hd : Body.decode line.content with
    | ok v => exact ⟨v, rfl⟩
    | error e => exact absurd (mem_badLinesFrom_iff.2 ⟨i, line, hi, ⟨e, hd⟩, rfl⟩) (h _)
  · intro h b hb
    obtain ⟨i, line, hi, ⟨e, he⟩, -⟩ := mem_badLinesFrom_iff.1 hb
    obtain ⟨v, hv⟩ := h line (List.mem_of_getElem? hi)
    rw [hv] at he
    exact absurd he (by simp)

/-- A check agrees with decoding the document as a whole: it is clean exactly
when the document has a value as one body, and that value, or its absence, is
what the lines give one by one, each with its own ending behind it. -/
theorem isClean_iff_decode_and_decode_eq_decodeLines (source : String) :
    ((ofSource source).isClean = true ↔ ∃ s, Body.decode source = .ok s) ∧
    Body.decode source = Body.decodeLines (Text.lines source) := by
  have hwhole : Body.decode source = Body.decodeLines (Text.lines source) := by
    apply Body.result_ext
    rw [Text.lines, Body.chars_decodeLines_segments, Body.chars?, String.ofList_toList]
  refine ⟨?_, hwhole⟩
  rw [isClean_iff, hwhole, Body.exists_decodeLines_iff]

end Report

/-!
## Bodies as lines and as arguments

A body can be checked as a line of a document or decoded as an argument. As a
line it loses a carriage return at its end, but neither that nor the ending that
is written behind it decides whether the body has a value
(`exists_decode_content_ofSegment_iff`). So a document with one body on each line
is refused at the numbers of the arguments that are refused, however its lines
end.
-/

/-- The numbers of the arguments without a value. The first argument has
number 1. -/
def Cli.refusedNumbers (arguments : List Cli.DecodedArgument) : List Nat :=
  ((arguments.zipIdx 1).filter fun p => !p.1.isOk).map Prod.snd

theorem Cli.DecodedArgument.isOk_iff {a : Cli.DecodedArgument} :
    a.isOk = true ↔ ∃ s, a.result = .ok s := by
  rw [isOk]
  cases a.result with
  | error e => simp
  | ok s => simp

/-- No argument is refused exactly when all of them have a value. -/
theorem Cli.refusedNumbers_eq_nil_iff {arguments : List Cli.DecodedArgument} :
    refusedNumbers arguments = [] ↔ ∀ a ∈ arguments, a.isOk = true := by
  rw [refusedNumbers, List.map_eq_nil_iff, List.filter_eq_nil_iff]
  refine ⟨?_, ?_⟩
  · intro h a ha
    obtain ⟨i, hi⟩ := List.mem_iff_getElem?.1 ha
    have hmem : (a, 1 + i) ∈ arguments.zipIdx 1 := List.mk_add_mem_zipIdx_iff_getElem?.2 hi
    simpa using h _ hmem
  · intro h p hp
    simpa using h p.1 (List.fst_mem_of_mem_zipIdx hp)

namespace Report

/-! ### One body -/

/-- To write a line and to take its ending off again may cost the body a carriage
return, but never changes whether it has a value. -/
theorem exists_decode_content_ofSegment_iff {l : Text.Line} (hl : l.Complete) :
    (∃ v, Body.decode (Text.Line.ofSegment l.chars).content = .ok v) ↔
      ∃ v, Body.decode l.content = .ok v := by
  obtain ⟨a, -, hchars, ha⟩ := hl.exists_chars_eq
  have hline := congrArg Option.isSome (Body.lineChars?_ofSegment_lf a)
  rw [Body.lineChars?, Option.isSome_map, Option.isSome_map] at hline
  have hbody : (Body.chars? a).isSome = (Body.chars? l.content.toList).isSome := by
    rcases ha with rfl | rfl
    · rfl
    · rw [Body.chars?_append_separator_singleton Escape.separates_cr, Option.isSome_map]
  rw [hchars, Body.exists_decode_eq_ok_iff, Body.exists_decode_eq_ok_iff,
    ← Option.isSome_iff_exists, ← Option.isSome_iff_exists, hline, hbody]

/-! ### All bodies -/

/-- The numbers of the bad lines are those of the refused arguments, where each
line has a value exactly when its argument does. -/
theorem map_line_badLinesFrom {lines : List Text.Line} {arguments : List Cli.DecodedArgument}
    (h : List.Forall₂ (fun line a => (∃ v, Body.decode line.content = .ok v) ↔ a.isOk = true)
      lines arguments) (number offset : Nat) :
    (badLinesFrom number offset lines).map BadLine.line =
      ((arguments.zipIdx (number + 1)).filter fun p => !p.1.isOk).map Prod.snd := by
  induction h generalizing number offset with
  | nil => rfl
  | @cons line a lines arguments hline _ ih =>
    rw [badLinesFrom, List.zipIdx_cons, List.filter_cons]
    cases hd : Body.decode line.content with
    | ok v =>
      have hok : a.isOk = true := hline.1 ⟨v, hd⟩
      simp [hok, ih]
    | error e =>
      have hbad : a.isOk = false := by
        rw [Bool.eq_false_iff, Ne, ← hline, hd]
        simp
      simp [hbad, ih]

/-- The bad lines of a document that was written line by line. -/
theorem map_line_badLines_ofLines {ls : List Text.Line} (hls : ∀ l ∈ ls, l.Complete) :
    (ofSource (Text.ofLines ls)).badLines.toList.map BadLine.line =
      Cli.refusedNumbers (Cli.decodeArguments (ls.map Text.Line.content)) := by
  rw [badLines_ofSource, Text.lines_ofLines hls]
  apply map_line_badLinesFrom
  rw [Cli.decodeArguments, List.map_map, List.forall₂_map_left_iff, List.forall₂_map_right_iff,
    List.forall₂_same]
  intro l hl
  rw [exists_decode_content_ofSegment_iff (hls l hl), Cli.DecodedArgument.isOk_iff]
  rfl

/-- Checking a document and decoding arguments agree. A document with one body on
each line, ended as one likes, has as many lines as there are bodies, and its bad
lines have the numbers of the bodies that are refused as arguments. So other
endings are the same lines refused, and the check is clean exactly when every
argument has a value. -/
theorem bad_lines_are_refused_arguments {ls : List Text.Line} (hls : ∀ l ∈ ls, l.Complete) :
    (ofSource (Text.ofLines ls)).linesChecked = ls.length ∧
    (ofSource (Text.ofLines ls)).badLines.toList.map BadLine.line =
      Cli.refusedNumbers (Cli.decodeArguments (ls.map Text.Line.content)) ∧
    (∀ ls' : List Text.Line, (∀ l ∈ ls', l.Complete) →
      ls'.map Text.Line.content = ls.map Text.Line.content →
      (ofSource (Text.ofLines ls')).badLines.toList.map BadLine.line =
        (ofSource (Text.ofLines ls)).badLines.toList.map BadLine.line) ∧
    ((ofSource (Text.ofLines ls)).isClean = true ↔
      ∀ a ∈ Cli.decodeArguments (ls.map Text.Line.content), ∃ s, a.result = .ok s) := by
  refine ⟨?_, map_line_badLines_ofLines hls, ?_, ?_⟩
  · rw [linesChecked_ofSource, Text.lines_ofLines hls, List.length_map]
  · intro ls' hls' hcontent
    rw [map_line_badLines_ofLines hls', map_line_badLines_ofLines hls, hcontent]
  · simp only [← Cli.DecodedArgument.isOk_iff]
    rw [← Cli.refusedNumbers_eq_nil_iff, ← map_line_badLines_ofLines hls, List.map_eq_nil_iff,
      isClean, Array.isEmpty_iff, ← Array.toList_eq_nil_iff]

/-- Three bodies, of which the second ends in a carriage return right behind a
lone surrogate and the last one breaks off in front of its ending. -/
theorem bad_lines_of_mixed_endings :
    (∀ l ∈ [Text.Line.mk "a" .crlf, ⟨"\\uD83D\r", .lf⟩, ⟨"\\", .crlf⟩], l.Complete) ∧
    (ofSource "a\r\n\\uD83D\r\n\\\r\n").badLines.toList.map BadLine.line = [2, 3] ∧
    Cli.refusedNumbers (Cli.decodeArguments ["a", "\\uD83D\r", "\\"]) = [2, 3] := by
  have hls : ∀ l ∈ [Text.Line.mk "a" .crlf, ⟨"\\uD83D\r", .lf⟩, ⟨"\\", .crlf⟩], l.Complete := by
    simp only [List.forall_mem_cons]
    refine ⟨⟨by decide, by decide⟩, ⟨by decide, by decide⟩, ⟨by decide, by decide⟩, by simp⟩
  obtain ⟨-, hnumbers, -⟩ := bad_lines_are_refused_arguments hls
  have hrefused : Cli.refusedNumbers (Cli.decodeArguments ["a", "\\uD83D\r", "\\"]) = [2, 3] := by
    cbv
  exact ⟨hls, hnumbers.trans hrefused, hrefused⟩

end Report

end GraphqlLiteral
