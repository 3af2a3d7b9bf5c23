import GraphqlLiteral.Proofs.Problem
import GraphqlLiteral.Proofs.Text.Lines
import Mathlib

/-!
# Reports and their bad lines

What the loop over the lines adds up, and what this says of the document: its bad
lines, each once, in order, and shown where they are.
-/

namespace GraphqlLiteral

/-!
## The loop over the lines

A check carries three things from line to line: a number, an offset and the bad
lines so far. `badLinesFrom` is what it adds, for any number and offset to begin
with, and `mem_badLinesFrom_iff` says which lines these are.
-/

/-- The bad lines of a row of lines, of which `number` come before and take up
`offset` bytes. -/
def Report.badLinesFrom (number offset : Nat) : List Text.Line → List BadLine
  | [] => []
  | line :: lines =>
    match Body.decode line.content with
    | .ok _ => badLinesFrom (number + 1) (offset + line.byteLength) lines
    | .error _ =>
      ⟨number + 1, .undecodable (LongOffset.clamp offset)
        (LongOffset.clamp line.content.utf8ByteSize)⟩ ::
        badLinesFrom (number + 1) (offset + line.byteLength) lines

namespace LineCheck

theorem linesChecked_foldl_next (lines : List Text.Line) (c : LineCheck) :
    (lines.foldl next c).report.linesChecked = c.report.linesChecked + lines.length := by
  induction lines generalizing c with
  | nil => rfl
  | cons line lines ih =>
    rw [List.foldl_cons, ih, List.length_cons]
    show c.report.linesChecked + 1 + lines.length = _
    omega

/-- The bad lines of a run stand behind those from before, unchanged. -/
theorem badLines_foldl_next (lines : List Text.Line) (c : LineCheck) :
    (lines.foldl next c).report.badLines.toList =
      c.report.badLines.toList ++
        Report.badLinesFrom c.report.linesChecked c.offset lines := by
  induction lines generalizing c with
  | nil => simp [Report.badLinesFrom]
  | cons line lines ih =>
    rw [List.foldl_cons, ih, Report.badLinesFrom]
    cases hd : Body.decode line.content with
    | ok v => simp [next, hd]
    | error e => simp [next, hd]

end LineCheck

namespace Report

/-- Where a text stands makes no difference to its lines. -/
theorem linesChecked_ofPart (base : Nat) (source : String) :
    (ofPart base source).linesChecked = (Text.lines source).length := by
  rw [ofPart, LineCheck.linesChecked_foldl_next]
  exact Nat.zero_add _

theorem badLines_ofPart (base : Nat) (source : String) :
    (ofPart base source).badLines.toList = badLinesFrom 0 base (Text.lines source) := by
  rw [ofPart, LineCheck.badLines_foldl_next]
  rfl

theorem linesChecked_ofSource (source : String) :
    (ofSource source).linesChecked = (Text.lines source).length := linesChecked_ofPart 0 source

theorem badLines_ofSource (source : String) :
    (ofSource source).badLines.toList = badLinesFrom 0 0 (Text.lines source) :=
  badLines_ofPart 0 source

/-- A line that stands somewhere in a row stands first or somewhere behind. -/
theorem exists_getElem?_cons {line : Text.Line} {lines : List Text.Line}
    {p : Nat → Text.Line → Prop} :
    (∃ i l, (line :: lines)[i]? = some l ∧ p i l) ↔
      p 0 line ∨ ∃ i l, lines[i]? = some l ∧ p (i + 1) l := by
  refine ⟨?_, ?_⟩
  · intro ⟨i, l, hl, hp⟩
    cases i with
    | zero =>
      obtain rfl : line = l := by simpa using hl
      exact .inl hp
    | succ i => exact .inr ⟨i, l, hl, hp⟩
  · intro h
    rcases h with hp | ⟨i, l, hl, hp⟩
    · exact ⟨0, line, rfl, hp⟩
    · exact ⟨i + 1, l, hl, hp⟩

/-- The bad lines are those whose content does not decode, each with its number
and with the bytes of the lines before it. -/
theorem mem_badLinesFrom_iff {number offset : Nat} {lines : List Text.Line} {b : BadLine} :
    b ∈ badLinesFrom number offset lines ↔
      ∃ i line, lines[i]? = some line ∧ (∃ e, Body.decode line.content = .error e) ∧
        b = ⟨number + i + 1, .undecodable
          (LongOffset.clamp (offset + ((lines.take i).map Text.Line.byteLength).sum))
          (LongOffset.clamp line.content.utf8ByteSize)⟩ := by
  induction lines generalizing number offset with
  | nil => simp [badLinesFrom]
  | cons line lines ih =>
    -- The number and the offset of a later line, told from the first line on.
    have hlater := @ih (number + 1) (offset + line.byteLength)
    simp only [Nat.add_right_comm number 1, Nat.add_assoc offset] at hlater
    rw [exists_getElem?_cons, badLinesFrom]
    simp only [List.take_succ_cons, List.map_cons, List.sum_cons, ← Nat.add_assoc number]
    rw [← hlater]
    cases hd : Body.decode line.content with
    | ok v => simp
    | error e =>
      have : Nonempty EscapeError := ⟨e⟩
      simp

/-- Each bad line is told once, and a later one later. -/
theorem pairwise_badLinesFrom (number offset : Nat) (lines : List Text.Line) :
    (badLinesFrom number offset lines).Pairwise fun b b' => b.line < b'.line := by
  induction lines generalizing number offset with
  | nil => exact .nil
  | cons line lines ih =>
    rw [badLinesFrom]
    cases Body.decode line.content with
    | ok v => exact ih _ _
    | error e =>
      refine List.pairwise_cons.2 ⟨?_, ih _ _⟩
      intro b hb
      obtain ⟨i, l, -, -, rfl⟩ := mem_badLinesFrom_iff.1 hb
      show number + 1 < number + 1 + i + 1
      omega

/-!
## What a report says about a document

A report counts the lines of a document and tells the bad ones, each by its
number, once and in order (`TellsBadLines`). In a document that a span can
address as a whole, the span of a bad line is its content to the byte
(`LocatesBadLines`): the offset runs over whole lines, with their endings, and
the length stops in front of the ending.
-/

/-- The report tells the bad ones among the lines and no other, by their
numbers from 1 on, in rising order and so each of them once. -/
structure TellsBadLines (r : Report) (lines : List Text.Line) : Prop where
  increasing : r.badLines.toList.Pairwise fun b b' => b.line < b'.line
  exists_line_iff : ∀ k, (∃ b ∈ r.badLines, b.line = k) ↔
    ∃ i line, k = i + 1 ∧ lines[i]? = some line ∧ ∃ e, Body.decode line.content = .error e

/-- The spans of the report are the contents of the bad lines. -/
structure LocatesBadLines (r : Report) (source : String) : Prop where
  /-- The bytes of a span are the content of its line, which stands behind the
  lines before it. -/
  exact_content : ∀ b ∈ r.badLines, ∃ i line span, b.line = i + 1 ∧
    (Text.lines source)[i]? = some line ∧ b.problem = .invalidEscape span ∧
    span.start.toNat = Text.lineStart source i ∧
    span.stop.toNat = Text.lineStart source i + line.content.utf8ByteSize ∧
    Text.slice? source span.start.toNat (span.stop.toNat - span.start.toNat) = some line.content
  /-- A span ends in front of the next one. -/
  disjoint : r.badLines.toList.Pairwise fun b b' => b.problem.span.stop < b'.problem.span.start
  /-- A span lies within the document. -/
  inside : ∀ b ∈ r.badLines, b.problem.span.start ≤ b.problem.span.stop ∧
    b.problem.span.stop.toNat ≤ source.utf8ByteSize
  /-- A span lies in front of the ending of any line, or behind it. -/
  no_ending : ∀ b ∈ r.badLines, ∀ i line, (Text.lines source)[i]? = some line →
    b.problem.span.stop.toNat ≤ Text.lineStart source i + line.content.utf8ByteSize ∨
    Text.lineStart source (i + 1) ≤ b.problem.span.start.toNat

/-! ### Which lines -/

/-- The bad lines of a text at byte `base`, each with its number and its place. -/
theorem mem_badLines_ofPart_iff {base : Nat} {source : String} {b : BadLine} :
    b ∈ (ofPart base source).badLines ↔
      ∃ i line, (Text.lines source)[i]? = some line ∧
        (∃ e, Body.decode line.content = .error e) ∧
        b = ⟨i + 1, .undecodable (LongOffset.clamp (base + Text.lineStart source i))
          (LongOffset.clamp line.content.utf8ByteSize)⟩ := by
  rw [← Array.mem_toList_iff, badLines_ofPart, mem_badLinesFrom_iff]
  simp only [Nat.zero_add, Text.sum_byteLength_take_lines]

theorem mem_badLines_ofSource_iff {source : String} {b : BadLine} :
    b ∈ (ofSource source).badLines ↔
      ∃ i line, (Text.lines source)[i]? = some line ∧
        (∃ e, Body.decode line.content = .error e) ∧
        b = ⟨i + 1, .undecodable (LongOffset.clamp (Text.lineStart source i))
          (LongOffset.clamp line.content.utf8ByteSize)⟩ := by
  rw [ofSource, mem_badLines_ofPart_iff]
  simp only [Nat.zero_add]

theorem tellsBadLines_ofSource (source : String) :
    (ofSource source).TellsBadLines (Text.lines source) := by
  refine ⟨?_, ?_⟩
  · rw [badLines_ofSource]
    exact pairwise_badLinesFrom 0 0 (Text.lines source)
  · intro k
    refine ⟨?_, ?_⟩
    · intro ⟨b, hb, hk⟩
      obtain ⟨i, line, hline, hbad, rfl⟩ := mem_badLines_ofSource_iff.1 hb
      exact ⟨i, line, hk.symm, hline, hbad⟩
    · intro ⟨i, line, hk, hline, hbad⟩
      exact ⟨_, mem_badLines_ofSource_iff.2 ⟨i, line, hline, hbad, rfl⟩, hk.symm⟩

/-! ### Which bytes -/

/-- The span of a bad line of a text that ends within the limit. -/
theorem exists_span_of_mem_ofPart {base : Nat} {source : String}
    (hsize : base + source.utf8ByteSize ≤ 2 ^ 32 - 1) {b : BadLine}
    (hb : b ∈ (ofPart base source).badLines) :
    ∃ i line span, b.line = i + 1 ∧ (Text.lines source)[i]? = some line ∧
      b.problem = .invalidEscape span ∧ span.start.toNat = base + Text.lineStart source i ∧
      span.stop.toNat = base + Text.lineStart source i + line.content.utf8ByteSize := by
  obtain ⟨i, line, hline, -, rfl⟩ := mem_badLines_ofPart_iff.1 hb
  have hstop := Text.stop_le_lineStart_succ hline
  have hend := Text.lineStart_le_utf8ByteSize source (i + 1)
  -- Both numbers are at most the end of the text, so neither is clamped.
  have hstart : (LongOffset.clamp (base + Text.lineStart source i)).toNat =
      base + Text.lineStart source i := LongOffset.toNat_clamp_of_le (by omega)
  have hlen : (LongOffset.clamp line.content.utf8ByteSize).toNat = line.content.utf8ByteSize :=
    LongOffset.toNat_clamp_of_le (by omega)
  have hfit : (LongOffset.clamp (base + Text.lineStart source i)).toNat +
      (LongOffset.clamp line.content.utf8ByteSize).toNat ≤ 2 ^ 32 - 1 := by
    rw [hstart, hlen]
    omega
  obtain ⟨span, hspan, hlow, hhigh⟩ := Problem.exists_undecodable_eq_of_le hfit
  rw [hstart] at hlow
  rw [hstart, hlen] at hhigh
  exact ⟨i, line, span, rfl, hline, hspan, hlow, hhigh⟩

/-- The last byte that a span can address ends a bad line. -/
example : (ofPart 4294967286 "ok\n\\uDC00").badLines =
    #[⟨2, .invalidEscape ⟨4294967289, 4294967295⟩⟩] := by cbv

/-- The span of a bad line of a document that is not too long. -/
theorem exists_span_of_mem {source : String} (hsize : source.utf8ByteSize ≤ 2 ^ 32 - 1)
    {b : BadLine} (hb : b ∈ (ofSource source).badLines) :
    ∃ i line span, b.line = i + 1 ∧ (Text.lines source)[i]? = some line ∧
      b.problem = .invalidEscape span ∧ span.start.toNat = Text.lineStart source i ∧
      span.stop.toNat = Text.lineStart source i + line.content.utf8ByteSize := by
  have hpart := @exists_span_of_mem_ofPart 0 source (by omega) b hb
  simpa only [Nat.zero_add] using hpart

theorem locatesBadLines_ofSource {source : String} (hsize : source.utf8ByteSize ≤ 2 ^ 32 - 1) :
    (ofSource source).LocatesBadLines source := by
  refine ⟨?_, ?_, ?_, ?_⟩
  · intro b hb
    obtain ⟨i, line, span, hnum, hline, hspan, hstart, hstop⟩ := exists_span_of_mem hsize hb
    refine ⟨i, line, span, hnum, hline, hspan, hstart, hstop, ?_⟩
    rw [hstop, hstart, Nat.add_sub_cancel_left]
    exact Text.slice?_lineStart hline
  · -- A later line begins behind the end of an earlier one.
    refine (tellsBadLines_ofSource source).increasing.imp_of_mem ?_
    intro b b' hb hb' hlt
    obtain ⟨i, line, span, hnum, hline, hspan, -, hstop⟩ :=
      exists_span_of_mem hsize (Array.mem_toList_iff.1 hb)
    obtain ⟨j, line', span', hnum', hline', hspan', hstart', -⟩ :=
      exists_span_of_mem hsize (Array.mem_toList_iff.1 hb')
    rw [hspan, hspan', UInt32.lt_iff_toNat_lt]
    show span.stop.toNat < span'.start.toNat
    rw [hstop, hstart']
    exact Text.stop_lt_lineStart hline hline' (by omega)
  · intro b hb
    obtain ⟨i, line, span, -, hline, hspan, hstart, hstop⟩ := exists_span_of_mem hsize hb
    have hnext := Text.stop_le_lineStart_succ hline
    have hend := Text.lineStart_le_utf8ByteSize source (i + 1)
    rw [hspan, UInt32.le_iff_toNat_le]
    show span.start.toNat ≤ span.stop.toNat ∧ span.stop.toNat ≤ source.utf8ByteSize
    omega
  · intro b hb j line' hline'
    obtain ⟨i, line, span, -, hline, hspan, hstart, hstop⟩ := exists_span_of_mem hsize hb
    rw [hspan]
    show span.stop.toNat ≤ _ ∨ _ ≤ span.start.toNat
    rw [hstop, hstart]
    rcases Nat.lt_trichotomy i j with hij | rfl | hji
    · -- The line of the ending comes later.
      have hlt := Text.stop_lt_lineStart hline hline' hij
      omega
    · -- It is the line of the span itself.
      rw [hline, Option.some.injEq] at hline'
      rw [hline']
      exact .inl (Nat.le_refl _)
    · -- It comes earlier.
      exact .inr (Text.lineStart_mono source hji)

/-- A document is cut behind every line feed, and a line is a piece without its
ending. The report counts the pieces and tells the bad ones; in a document of
less than 4 GiB each of them is shown exactly where its content is. -/
theorem ofSource_tells_and_locates_bad_lines (source : String) :
    Text.IsCut source.toList (Text.segments source.toList) ∧
    List.Forall₂
      (fun seg (line : Text.Line) => line.chars = seg ∧ Text.IsContent seg line.content.toList)
      (Text.segments source.toList) (Text.lines source) ∧
    (ofSource source).linesChecked = (Text.segments source.toList).length ∧
    (Text.segments source.toList).length = source.toList.count '\n' +
      (if source.toList ≠ [] ∧ source.toList.getLast? ≠ some '\n' then 1 else 0) ∧
    (ofSource source).TellsBadLines (Text.lines source) ∧
    (source.utf8ByteSize ≤ 2 ^ 32 - 1 → (ofSource source).LocatesBadLines source) := by
  refine ⟨Text.isCut_segments _, Text.forall₂_isContent_lines source, ?_,
    Text.length_segments _, tellsBadLines_ofSource source, locatesBadLines_ofSource⟩
  rw [linesChecked_ofSource, Text.lines, List.length_map]

/-- Two bad lines behind a good one, with a character of two bytes in the second
and no line feed behind it. -/
theorem locates_bad_lines_of_mixed_endings :
    "a\r\n\\x\r\né\\q".utf8ByteSize ≤ 2 ^ 32 - 1 ∧
    (ofSource "a\r\n\\x\r\né\\q").LocatesBadLines "a\r\n\\x\r\né\\q" ∧
    (ofSource "a\r\n\\x\r\né\\q").badLines.toList =
      [⟨2, .invalidEscape ⟨3, 5⟩⟩, ⟨3, .invalidEscape ⟨7, 11⟩⟩] := by
  obtain ⟨-, -, -, -, -, hlocates⟩ :=
    ofSource_tells_and_locates_bad_lines "a\r\n\\x\r\né\\q"
  exact ⟨by decide, hlocates (by decide), by cbv⟩

end Report

end GraphqlLiteral
