import GraphqlLiteral.Proofs.Report.BadLines
import Mathlib

/-!
# Reports on the parts of a document

A document is checked part by part. Where a line feed ends the first part, its
bad lines stay as they are, and those of the second part come behind them, with
higher numbers and further on in the bytes (`MovedLine`). Both halves come from
one fact about the loop over the lines, run twice over the same lines from two
numbers and two offsets (`forall₂_badLinesFrom`).
-/

namespace GraphqlLiteral.Report

/-- What is told of a line that does not decode, behind `number` lines of `offset`
bytes. -/
def badLineAt (number offset : Nat) (line : Text.Line) : BadLine :=
  ⟨number + 1, .undecodable (LongOffset.clamp offset) (LongOffset.clamp line.content.utf8ByteSize)⟩

/-- A bad line `b` of `source`, and `b'`, the same line in `source'`, where it
stands `up` lines further down and begins `k'` instead of `k` bytes behind some
place. -/
structure MovedLine (source source' : String) (up k k' : Nat) (b b' : BadLine) : Prop where
  number : b'.line = b.line + up
  /-- Both are told as the same line is, each at its own place in its document. -/
  place : ∃ i line,
    (Text.lines source)[i]? = some line ∧ (Text.lines source')[i + up]? = some line ∧
    b = badLineAt i (Text.lineStart source i) line ∧
    b' = badLineAt (i + up) (Text.lineStart source' (i + up)) line ∧
    Text.lineStart source' (i + up) + k = Text.lineStart source i + k'
  /-- In documents that are not too long the two spans show it. -/
  spans : source.utf8ByteSize ≤ 2 ^ 32 - 1 → source'.utf8ByteSize ≤ 2 ^ 32 - 1 →
    ∃ span span', b.problem = .invalidEscape span ∧ b'.problem = .invalidEscape span' ∧
      span'.start.toNat + k = span.start.toNat + k' ∧
      span'.stop.toNat + k = span.stop.toNat + k'

/-! ## The loop, from two places -/

theorem badLinesFrom_append (number offset : Nat) (xs ys : List Text.Line) :
    badLinesFrom number offset (xs ++ ys) =
      badLinesFrom number offset xs ++
        badLinesFrom (number + xs.length) (offset + (xs.map Text.Line.byteLength).sum) ys := by
  induction xs generalizing number offset with
  | nil => simp [badLinesFrom]
  | cons x xs ih =>
    have hnumber : number + (x :: xs).length = number + 1 + xs.length := by
      rw [List.length_cons]
      omega
    rw [List.cons_append, badLinesFrom, badLinesFrom, ih, hnumber, List.map_cons, List.sum_cons,
      Nat.add_assoc offset]
    cases Body.decode x.content with
    | ok v => rfl
    | error e => rfl

/-- The number of the lines in front is counted on, and decides nothing else. -/
theorem badLinesFrom_eq_map (number offset : Nat) (lines : List Text.Line) :
    badLinesFrom number offset lines =
      (badLinesFrom 0 offset lines).map fun b => { b with line := number + b.line } := by
  induction lines generalizing number offset with
  | nil => rfl
  | cons line lines ih =>
    rw [badLinesFrom, badLinesFrom, ih (number + 1), ih (0 + 1)]
    cases Body.decode line.content with
    | ok v => simp [Nat.add_assoc]
    | error e => simp [Nat.add_assoc]

/-- Two runs over the same lines tell the same of them, each from where it
began. -/
theorem forall₂_badLinesFrom {R : BadLine → BadLine → Prop} {lines : List Text.Line}
    {number number' offset offset' : Nat}
    (h : ∀ i line, lines[i]? = some line → (∃ e, Body.decode line.content = .error e) →
      R (badLineAt (number + i) (offset + ((lines.take i).map Text.Line.byteLength).sum) line)
        (badLineAt (number' + i) (offset' + ((lines.take i).map Text.Line.byteLength).sum) line)) :
    List.Forall₂ R (badLinesFrom number offset lines) (badLinesFrom number' offset' lines) := by
  induction lines generalizing number number' offset offset' with
  | nil => exact .nil
  | cons line lines ih =>
    -- What is line `i` behind the first one is line `i + 1` from here.
    have hlater : List.Forall₂ R (badLinesFrom (number + 1) (offset + line.byteLength) lines)
        (badLinesFrom (number' + 1) (offset' + line.byteLength) lines) := by
      apply ih
      intro i l hl hbad
      have hmoved := h (i + 1) l hl hbad
      rw [List.take_succ_cons, List.map_cons, List.sum_cons] at hmoved
      simpa only [Nat.add_assoc, Nat.add_comm 1 i] using hmoved
    rw [badLinesFrom, badLinesFrom]
    cases hd : Body.decode line.content with
    | ok v => exact hlater
    | error e => exact .cons (h 0 line rfl ⟨e, hd⟩) hlater

/-! ## Two parts -/

/-- The bad lines of a document, part by part. -/
theorem badLines_append {front : String} (hfront : Text.IsWhole front) (behind : String) :
    (ofSource (front ++ behind)).badLines.toList =
      (ofSource front).badLines.toList ++
        badLinesFrom (ofSource front).linesChecked front.utf8ByteSize (Text.lines behind) := by
  have hsum := Text.sum_byteLength_take_lines front (Text.lines front).length
  rw [List.take_length, Text.lineStart_length_lines] at hsum
  rw [badLines_ofSource, badLines_ofSource, Text.lines_append hfront, badLinesFrom_append,
    linesChecked_ofSource, hsum, Nat.zero_add, Nat.zero_add]

/-- The second part is checked at its own place in the document, and its lines are
counted on from those of the first. -/
theorem badLines_append_ofPart {front : String} (hfront : Text.IsWhole front) (behind : String) :
    (ofSource (front ++ behind)).badLines.toList = (ofSource front).badLines.toList ++
      (ofPart front.utf8ByteSize behind).badLines.toList.map fun b =>
        { b with line := (ofSource front).linesChecked + b.line } := by
  rw [badLines_append hfront, badLinesFrom_eq_map, badLines_ofPart]

theorem linesChecked_append {front : String} (hfront : Text.IsWhole front) (behind : String) :
    (ofSource (front ++ behind)).linesChecked =
      (ofSource front).linesChecked + (ofSource behind).linesChecked := by
  rw [linesChecked_ofSource, linesChecked_ofSource, linesChecked_ofSource,
    Text.lines_append hfront, List.length_append]

/-- A bad line behind whole lines, as a bad line of the document. -/
theorem getElem?_lines_append {front : String} (hfront : Text.IsWhole front) (behind : String)
    (i : Nat) :
    (Text.lines (front ++ behind))[(Text.lines front).length + i]? = (Text.lines behind)[i]? := by
  rw [Text.lines_append hfront, List.getElem?_append_right (Nat.le_add_right _ _),
    Nat.add_sub_cancel_left]

/-- In a short document a line that does not decode is told by the span of its
content. -/
theorem exists_span_badLineAt {source : String} (hsize : source.utf8ByteSize ≤ 2 ^ 32 - 1)
    {i : Nat} {line : Text.Line} (hline : (Text.lines source)[i]? = some line)
    (hbad : ∃ e, Body.decode line.content = .error e) :
    ∃ span, (badLineAt i (Text.lineStart source i) line).problem = .invalidEscape span ∧
      span.start.toNat = Text.lineStart source i ∧
      span.stop.toNat = Text.lineStart source i + line.content.utf8ByteSize := by
  obtain ⟨i', line', span, hnum, hline', hspan, hstart, hstop⟩ :=
    exists_span_of_mem hsize (mem_badLines_ofSource_iff.2 ⟨i, line, hline, hbad, rfl⟩)
  obtain rfl : i = i' := Nat.succ.inj hnum
  obtain rfl : line = line' := by simpa [hline] using hline'
  exact ⟨span, hspan, hstart, hstop⟩

/-- The lines of `behind`, told behind two fronts. -/
theorem forall₂_movedLine {front front' : String} (hfront : Text.IsWhole front)
    (hfront' : Text.IsWhole front') (behind : String) {up k k' : Nat}
    (hup : (ofSource front').linesChecked = (ofSource front).linesChecked + up)
    (hk : front'.utf8ByteSize + k = front.utf8ByteSize + k') :
    List.Forall₂ (MovedLine (front ++ behind) (front' ++ behind) up k k')
      (badLinesFrom (ofSource front).linesChecked front.utf8ByteSize (Text.lines behind))
      (badLinesFrom (ofSource front').linesChecked front'.utf8ByteSize (Text.lines behind)) := by
  apply forall₂_badLinesFrom
  intro i line hline hbad
  have hget := (getElem?_lines_append hfront behind i).trans hline
  have hget' := (getElem?_lines_append hfront' behind i).trans hline
  have hstart := Text.lineStart_append hfront behind i
  have hstart' := Text.lineStart_append hfront' behind i
  rw [← linesChecked_ofSource] at hget hget' hstart hstart'
  have hindex : (ofSource front').linesChecked + i = (ofSource front).linesChecked + i + up := by
    omega
  rw [Text.sum_byteLength_take_lines, ← hstart, ← hstart']
  rw [hindex] at hget' hstart' ⊢
  refine ⟨?_, ⟨_, line, hget, hget', rfl, rfl, by omega⟩, ?_⟩
  · exact Nat.add_right_comm _ up 1
  intro hsize hsize'
  obtain ⟨span, hspan, hfrom, hto⟩ := exists_span_badLineAt hsize hget hbad
  obtain ⟨span', hspan', hfrom', hto'⟩ := exists_span_badLineAt hsize' hget' hbad
  exact ⟨span, span', hspan, hspan', by omega, by omega⟩

/-! ## One line in the middle -/

/-- A run from `number` on tells nothing of other lines. -/
theorem line_of_mem_badLinesFrom {number offset : Nat} {lines : List Text.Line} {b : BadLine}
    (hb : b ∈ badLinesFrom number offset lines) :
    number < b.line ∧ b.line ≤ number + lines.length := by
  obtain ⟨i, line, hline, -, rfl⟩ := mem_badLinesFrom_iff.1 hb
  have hi := (List.getElem?_eq_some_iff.1 hline).1
  exact ⟨by show number < number + i + 1; omega, by show number + i + 1 ≤ _; omega⟩

/-- At most one bad line comes from a text that has at most one line. -/
theorem line_eq_of_mem_badLinesFrom {number offset : Nat} {lines : List Text.Line}
    (hlines : lines.length ≤ 1) {b : BadLine} (hb : b ∈ badLinesFrom number offset lines) :
    b.line = number + 1 := by
  obtain ⟨hlow, hhigh⟩ := line_of_mem_badLinesFrom hb
  omega

/-- Two documents that are told the same in front of line `number`, and the same
again behind it, where the second document has `k'` bytes for `k` bytes of the
first. -/
structure DifferAt (source source' : String) (number k k' : Nat)
    (before own own' later later' : List BadLine) : Prop where
  badLines_eq : (ofSource source).badLines.toList = before ++ own ++ later
  badLines_eq' : (ofSource source').badLines.toList = before ++ own' ++ later'
  in_front : ∀ b ∈ before, b.line < number
  /-- What the line itself has told of it, if anything. -/
  at_line : ∀ b ∈ own ++ own', b.line = number
  behind : ∀ b ∈ later, number < b.line
  moved : List.Forall₂ (MovedLine source source' 0 k k') later later'

theorem line_lt_of_mem_badLines {source : String} {b : BadLine}
    (hb : b ∈ (ofSource source).badLines.toList) :
    b.line < (ofSource source).linesChecked + 1 := by
  rw [badLines_ofSource] at hb
  have hline := (line_of_mem_badLinesFrom hb).2
  rw [Nat.zero_add, ← linesChecked_ofSource] at hline
  exact Nat.lt_succ_of_le hline

variable {front x x' : String}

/-- Another last line: nothing comes behind it. -/
theorem exists_differAt_last (hfront : Text.IsWhole front) (hx : '\n' ∉ x.toList)
    (hx' : '\n' ∉ x'.toList) :
    ∃ own own' later later', DifferAt (front ++ x) (front ++ x')
      ((ofSource front).linesChecked + 1) x.utf8ByteSize x'.utf8ByteSize
      (ofSource front).badLines.toList own own' later later' := by
  have htold : ∀ y : String, (ofSource (front ++ y)).badLines.toList =
      (ofSource front).badLines.toList ++ badLinesFrom (ofSource front).linesChecked
        front.utf8ByteSize (Text.lines y) ++ [] := by
    intro y
    rw [List.append_nil, badLines_append hfront]
  refine ⟨_, _, _, _, htold x, htold x', fun b => line_lt_of_mem_badLines, ?_, by simp, .nil⟩
  intro b hb
  rcases List.mem_append.1 hb with hb | hb
  · exact line_eq_of_mem_badLinesFrom (Text.length_lines_le_one hx) hb
  · exact line_eq_of_mem_badLinesFrom (Text.length_lines_le_one hx') hb

/-- Another line in front of others: with any content it is one line. -/
theorem exists_differAt_middle (hfront : Text.IsWhole front) (hx : '\n' ∉ x.toList)
    (hx' : '\n' ∉ x'.toList) (behind : String) :
    ∃ own own' later later', DifferAt (front ++ (x ++ "\n") ++ behind)
      (front ++ (x' ++ "\n") ++ behind) ((ofSource front).linesChecked + 1) x.utf8ByteSize
      x'.utf8ByteSize (ofSource front).badLines.toList own own' later later' := by
  have hwhole : ∀ y : String, Text.IsWhole (front ++ (y ++ "\n")) := by
    intro y
    rw [← String.append_assoc]
    exact Text.isWhole_append_lf _
  have hcount : ∀ y : String, '\n' ∉ y.toList →
      (ofSource (front ++ (y ++ "\n"))).linesChecked = (ofSource front).linesChecked + 1 := by
    intro y hy
    rw [linesChecked_append hfront, linesChecked_ofSource (y ++ "\n"),
      Text.length_lines_append_lf hy]
  have htold : ∀ y : String, (ofSource (front ++ (y ++ "\n") ++ behind)).badLines.toList =
      (ofSource front).badLines.toList ++ badLinesFrom (ofSource front).linesChecked
        front.utf8ByteSize (Text.lines (y ++ "\n")) ++
      badLinesFrom (ofSource (front ++ (y ++ "\n"))).linesChecked
        (front ++ (y ++ "\n")).utf8ByteSize (Text.lines behind) := by
    intro y
    rw [badLines_append (hwhole y), badLines_append hfront]
  refine ⟨_, _, _, _, htold x, htold x', fun b => line_lt_of_mem_badLines, ?_, ?_, ?_⟩
  · intro b hb
    rcases List.mem_append.1 hb with hb | hb
    · exact line_eq_of_mem_badLinesFrom (Text.length_lines_append_lf hx).le hb
    · exact line_eq_of_mem_badLinesFrom (Text.length_lines_append_lf hx').le hb
  · intro b hb
    have hline := (line_of_mem_badLinesFrom hb).1
    rwa [hcount x hx] at hline
  · apply forall₂_movedLine (hwhole x) (hwhole x')
    · rw [hcount x hx, hcount x' hx', Nat.add_zero]
    · simp only [String.utf8ByteSize_append]
      omega

/-! ## Over line feeds -/

/-- Checking goes part by part over line feeds. Behind the lines of `a` the bad
lines of `b` are told as in `b` alone, with numbers and bytes counted on, and in
front of them nothing changes. So whoever edits the content of one line changes
what is told at its number alone; behind it only the spans move, by as many
bytes as the line has become longer or shorter. -/
theorem ofSource_append_lf_and_edit (a b : String) :
    (ofSource (a ++ "\n" ++ b)).linesChecked =
      (ofSource (a ++ "\n")).linesChecked + (ofSource b).linesChecked ∧
    (∃ moved, (ofSource (a ++ "\n" ++ b)).badLines.toList =
        (ofSource (a ++ "\n")).badLines.toList ++ moved ∧
      List.Forall₂ (MovedLine b (a ++ "\n" ++ b) (ofSource (a ++ "\n")).linesChecked 0
        (a ++ "\n").utf8ByteSize) (ofSource b).badLines.toList moved) ∧
    (∀ front x x' back, Text.IsWhole front → '\n' ∉ x.toList → '\n' ∉ x'.toList →
      (back = "" ∨ ∃ rest, back = "\n" ++ rest) →
      ∃ own own' later later', DifferAt (front ++ x ++ back) (front ++ x' ++ back)
        ((ofSource front).linesChecked + 1) x.utf8ByteSize x'.utf8ByteSize
        (ofSource front).badLines.toList own own' later later') := by
  have hwhole := Text.isWhole_append_lf a
  refine ⟨linesChecked_append hwhole b, ⟨_, badLines_append hwhole b, ?_⟩, ?_⟩
  · -- Alone, `b` stands behind nothing.
    have hmoved : List.Forall₂
        (MovedLine ("" ++ b) (a ++ "\n" ++ b) (ofSource (a ++ "\n")).linesChecked 0
          (a ++ "\n").utf8ByteSize) (badLinesFrom 0 0 (Text.lines b)) _ :=
      forall₂_movedLine Text.isWhole_empty hwhole b (Nat.zero_add _).symm (Nat.zero_add _).symm
    rwa [String.empty_append, ← badLines_ofSource] at hmoved
  · intro front x x' back hfront hx hx' hback
    rcases hback with rfl | ⟨rest, rfl⟩
    · rw [String.append_empty, String.append_empty]
      exact exists_differAt_last hfront hx hx'
    · have hsplit : ∀ y : String, front ++ y ++ ("\n" ++ rest) = front ++ (y ++ "\n") ++ rest := by
        simp only [String.append_assoc, implies_true]
      rw [hsplit, hsplit]
      exact exists_differAt_middle hfront hx hx' rest

/-- A character of two bytes in the second of three lines makes way for a
backslash. -/
theorem edit_of_second_line :
    Text.IsWhole "a\n" ∧ '\n' ∉ "é".toList ∧ '\n' ∉ "\\".toList ∧
    (∃ own own' later later',
      DifferAt "a\né\n\\q" "a\n\\\n\\q" 2 2 1 [] own own' later later') ∧
    (ofSource "a\né\n\\q").badLines.toList = [⟨3, .invalidEscape ⟨5, 7⟩⟩] ∧
    (ofSource "a\n\\\n\\q").badLines.toList =
      [⟨2, .invalidEscape ⟨2, 3⟩⟩, ⟨3, .invalidEscape ⟨4, 6⟩⟩] := by
  have hfront : Text.IsWhole "a\n" := Text.isWhole_append_lf "a"
  obtain ⟨-, -, hedit⟩ := ofSource_append_lf_and_edit "a" "é\n\\q"
  have hdiffer :=
    hedit "a\n" "é" "\\" "\n\\q" hfront (by decide) (by decide) (.inr ⟨"\\q", by decide⟩)
  have hnone : (ofSource "a\n").badLines.toList = [] := by cbv
  rw [hnone] at hdiffer
  exact ⟨hfront, by decide, by decide, hdiffer, by cbv, by cbv⟩

end GraphqlLiteral.Report
