import GraphqlLiteral.Report
import Mathlib

/-!
# The lines of a text

What it means to cut a text into lines, where the lines stand among its bytes, and
how the lines of two parts are those of the whole.
-/

namespace GraphqlLiteral

/-!
## What the lines of a text are

`IsCut` says what it means to cut a text behind every line feed, and
`IsContent` what is left of a piece without its ending, both without a word
about how it is done. `segments` and `lines` do that (`isCut_segments`,
`forall₂_isContent_lines`), and there is one line for each line feed and one
for a rest behind the last of them (`length_segments`).

Statements about a text are proved along its lines: `line_induction`.
-/

namespace Text

/-- The pieces are the text, cut behind every line feed. -/
structure IsCut (cs : List Char) (segs : List (List Char)) : Prop where
  /-- No character is lost or moved. -/
  flatten : segs.flatten = cs
  /-- No piece is empty. -/
  ne_nil : ∀ seg ∈ segs, seg ≠ []
  /-- A line feed stands nowhere but at the end of a piece. -/
  not_mem_dropLast : ∀ seg ∈ segs, '\n' ∉ seg.dropLast
  /-- Every piece but the last one ends with a line feed. -/
  getLast? : ∀ seg ∈ segs.dropLast, seg.getLast? = some '\n'

/-- A piece of a text and its content: a line feed at the end is taken off, and
then, and only then, one carriage return. -/
inductive IsContent : List Char → List Char → Prop where
  | unended {seg : List Char} : seg.getLast? ≠ some '\n' → IsContent seg seg
  | lf {content : List Char} :
      content.getLast? ≠ some '\r' → IsContent (content ++ ['\n']) content
  | crlf {content : List Char} : IsContent (content ++ ['\r', '\n']) content

/-! ### Cutting -/

@[simp] theorem segments_nil : segments [] = [] := rfl

/-- Nothing but the end of a piece decides where it ends. -/
theorem isChain_append_singleton {a : List Char} (ha : '\n' ∉ a) (c : Char) :
    (a ++ [c]).IsChain fun d _ => (d != '\n') = true := by
  induction a with
  | nil => exact List.isChain_singleton c
  | cons d a ih =>
    have hd : d ≠ '\n' := fun h => ha (h ▸ List.mem_cons_self)
    have htail := ih fun h => ha (List.mem_cons_of_mem d h)
    rw [List.cons_append, List.isChain_cons]
    exact ⟨fun _ _ => by simpa using hd, htail⟩

theorem segments_append_singleton {a : List Char} (ha : '\n' ∉ a) (c : Char) :
    segments (a ++ [c]) = [a ++ [c]] :=
  List.splitBy_of_isChain (by simp) (isChain_append_singleton ha c)

/-- A text without a line feed is one piece. -/
theorem segments_of_not_mem {a : List Char} (hne : a ≠ []) (ha : '\n' ∉ a) :
    segments a = [a] := by
  rw [← List.dropLast_concat_getLast hne]
  exact segments_append_singleton (fun h => ha (List.dropLast_subset a h)) _

/-- The first line feed ends the first piece. -/
theorem segments_append_lf {a : List Char} (ha : '\n' ∉ a) (b : List Char) :
    segments (a ++ '\n' :: b) = (a ++ ['\n']) :: segments b := by
  have hsplit : a ++ '\n' :: b = (a ++ ['\n']) ++ b := by simp
  rw [hsplit, segments, List.splitBy_append]
  · exact congrArg (· ++ segments b) (segments_append_singleton ha '\n')
  · simp

/-- To go along a text line by line. -/
@[elab_as_elim]
theorem line_induction {motive : List Char → Prop} (nil : motive [])
    (last : ∀ a, a ≠ [] → '\n' ∉ a → motive a)
    (line : ∀ a b, '\n' ∉ a → motive b → motive (a ++ '\n' :: b)) (cs : List Char) :
    motive cs := by
  induction hlen : cs.length using Nat.strong_induction_on generalizing cs with
  | _ n ih =>
    subst hlen
    by_cases hmem : '\n' ∈ cs
    · obtain ⟨a, b, rfl, ha⟩ := List.eq_append_cons_of_mem hmem
      have hlt : b.length < (a ++ '\n' :: b).length := by
        rw [List.length_append, List.length_cons]
        omega
      exact line a b ha (ih b.length hlt b rfl)
    · by_cases hne : cs = []
      · subst hne
        exact nil
      · exact last cs hne hmem

theorem flatten_segments (cs : List Char) : (segments cs).flatten = cs :=
  List.flatten_splitBy _ cs

theorem isCut_segments (cs : List Char) : IsCut cs (segments cs) := by
  induction cs using line_induction with
  | nil => exact ⟨rfl, by simp, by simp, by simp⟩
  | last a hne ha =>
    rw [segments_of_not_mem hne ha]
    refine ⟨by simp, by simpa using hne, ?_, by simp⟩
    intro seg hseg hmem
    rw [List.mem_singleton.1 hseg] at hmem
    exact ha (List.dropLast_subset a hmem)
  | line a b ha ih =>
    rw [segments_append_lf ha]
    refine ⟨?_, ?_, ?_, ?_⟩
    · rw [List.flatten_cons, ih.flatten]
      simp
    · exact List.forall_mem_cons.2 ⟨by simp, ih.ne_nil⟩
    · refine List.forall_mem_cons.2 ⟨?_, ih.not_mem_dropLast⟩
      rw [List.dropLast_concat]
      exact ha
    · -- The piece in front is the last one exactly when nothing comes behind it.
      intro seg hseg
      by_cases hb : segments b = []
      · simp [hb] at hseg
      · rw [List.dropLast_cons_of_ne_nil hb, List.mem_cons] at hseg
        rcases hseg with rfl | hseg
        · simp
        · exact ih.getLast? seg hseg

/-- One piece for each line feed, and one for what stands behind the last. -/
theorem length_segments (cs : List Char) :
    (segments cs).length =
      cs.count '\n' + if cs ≠ [] ∧ cs.getLast? ≠ some '\n' then 1 else 0 := by
  induction cs using line_induction with
  | nil => rfl
  | last a hne ha =>
    have hlast : a.getLast? ≠ some '\n' := fun h => ha (List.mem_of_getLast? h)
    rw [segments_of_not_mem hne ha, List.count_eq_zero_of_not_mem ha, if_pos ⟨hne, hlast⟩]
    rfl
  | line a b ha ih =>
    rw [segments_append_lf ha, List.length_cons, ih, List.count_append,
      List.count_eq_zero_of_not_mem ha, List.count_cons_self]
    -- The rest behind the line feed counts only if there is one.
    by_cases hb : b = []
    · subst hb
      simp
    · have hlast : (a ++ '\n' :: b).getLast? = b.getLast? := by
        rw [List.getLast?_append_of_ne_nil _ (List.cons_ne_nil _ _),
          List.getLast?_cons_of_ne_nil hb]
      rw [hlast]
      simp only [hb, ne_eq, not_false_eq_true, List.append_eq_nil_iff, reduceCtorEq, and_false,
        true_and]
      omega

/-! ### Lines -/

theorem isContent_ofSegment (seg : List Char) :
    IsContent seg (Line.ofSegment seg).content.toList := by
  unfold Line.ofSegment
  split
  · next hlf =>
    obtain ⟨line, rfl⟩ := List.getLast?_eq_some_iff.1 hlf
    rw [List.dropLast_concat]
    split
    · next hcr =>
      obtain ⟨content, rfl⟩ := List.getLast?_eq_some_iff.1 hcr
      rw [List.dropLast_concat, String.toList_ofList]
      simpa using @IsContent.crlf content
    · next hcr =>
      rw [String.toList_ofList]
      exact .lf hcr
  · next hlf =>
    rw [String.toList_ofList]
    exact .unended hlf

/-- The lines are the pieces, each with its ending taken off its content. -/
theorem forall₂_isContent_lines (source : String) :
    List.Forall₂ (fun seg (line : Line) => line.chars = seg ∧ IsContent seg line.content.toList)
      (segments source.toList) (lines source) := by
  rw [lines, List.forall₂_map_right_iff, List.forall₂_same]
  exact fun seg _ => ⟨Line.chars_ofSegment seg, isContent_ofSegment seg⟩

/-!
## Where the lines of a text stand

`lineStart` counts the bytes of the lines in front of one. A line stands there
with its content first and its ending right behind it (`exists_split`), so the
content is a slice of the text (`slice?_lineStart`), and every line but the last
leaves at least one byte between its content and the next line
(`stop_lt_lineStart`).
-/

/-- The number of bytes in front of a line, the first one being line 0. -/
def lineStart (source : String) (i : Nat) : Nat :=
  (((segments source.toList).take i).map byteLength).sum

theorem byteLength_toList (s : String) : byteLength s.toList = s.utf8ByteSize := by
  rw [byteLength, String.ofList_toList]

theorem byteLength_flatten (css : List (List Char)) :
    byteLength css.flatten = (css.map byteLength).sum := by
  induction css with
  | nil => simp
  | cons cs css ih => rw [List.flatten_cons, byteLength_append, ih, List.map_cons, List.sum_cons]

theorem lineStart_eq_byteLength (source : String) (i : Nat) :
    lineStart source i = byteLength ((segments source.toList).take i).flatten := by
  rw [byteLength_flatten, lineStart]

theorem getElem?_lines (source : String) (i : Nat) :
    (lines source)[i]? = (segments source.toList)[i]?.map Line.ofSegment := by
  rw [lines, List.getElem?_map]

/-- The bytes in front of a line, counted line by line. -/
theorem sum_byteLength_take_lines (source : String) (i : Nat) :
    (((lines source).take i).map Line.byteLength).sum = lineStart source i := by
  have hline : Line.byteLength ∘ Line.ofSegment = byteLength := by
    funext seg
    show byteLength (Line.ofSegment seg).chars = byteLength seg
    rw [Line.chars_ofSegment]
  rw [lines, ← List.map_take, List.map_map, hline, lineStart]

/-- A line in its text: what is in front of it, its content, its ending, and
what is behind it. -/
theorem exists_split {source : String} {i : Nat} {line : Line}
    (h : (lines source)[i]? = some line) :
    ∃ before after, source.toList =
        before ++ (line.content.toList ++ (line.ending.chars ++ after)) ∧
      byteLength before = lineStart source i ∧
      byteLength before + line.content.utf8ByteSize + byteLength line.ending.chars =
        lineStart source (i + 1) := by
  rw [getElem?_lines, Option.map_eq_some_iff] at h
  obtain ⟨seg, hseg, rfl⟩ := h
  have hchars : (Line.ofSegment seg).content.toList ++ (Line.ofSegment seg).ending.chars = seg :=
    Line.chars_ofSegment seg
  have hsum : byteLength (Line.ofSegment seg).content.toList +
      byteLength (Line.ofSegment seg).ending.chars = byteLength seg := by
    rw [← byteLength_append, hchars]
  -- In front of the line stand the earlier pieces, behind it the later ones.
  refine ⟨((segments source.toList).take i).flatten,
    ((segments source.toList).drop (i + 1)).flatten, ?_,
    (lineStart_eq_byteLength source i).symm, ?_⟩
  · obtain ⟨hi, hget⟩ := List.getElem?_eq_some_iff.1 hseg
    rw [← List.append_assoc (Line.ofSegment seg).content.toList, hchars]
    calc source.toList = (segments source.toList).flatten := (flatten_segments _).symm
      _ = ((segments source.toList).take i ++ (segments source.toList).drop i).flatten := by
        rw [List.take_append_drop]
      _ = _ := by rw [List.drop_eq_getElem_cons hi, hget, List.flatten_append, List.flatten_cons]
  · rw [← lineStart_eq_byteLength, lineStart, lineStart, List.take_add_one, hseg, List.map_append,
      List.sum_append, ← byteLength_toList, Nat.add_assoc, hsum]
    simp

/-- The content of a line is cut out of the text by its bytes. -/
theorem slice?_lineStart {source : String} {i : Nat} {line : Line}
    (h : (lines source)[i]? = some line) :
    slice? source (lineStart source i) line.content.utf8ByteSize = some line.content := by
  obtain ⟨before, after, hsource, hbefore, -⟩ := exists_split h
  refine slice?_eq_some_iff.2
    ⟨String.ofList before, String.ofList (line.ending.chars ++ after), ?_, hbefore, rfl⟩
  rw [← String.toList_inj, hsource]
  simp

/-- A slice of a text is a slice of its bytes. -/
theorem extract_toUTF8_of_slice? {source t : String} {start len : Nat}
    (h : slice? source start len = some t) :
    source.toUTF8.extract start (start + len) = t.toUTF8 := by
  obtain ⟨before, after, rfl, rfl, rfl⟩ := slice?_eq_some_iff.1 h
  have hbehind := @ByteArray.extract_append_size_add before.toByteArray
    (t.toByteArray ++ after.toByteArray) 0 t.toByteArray.size
  rw [Nat.add_zero, ByteArray.extract_append_eq_left rfl] at hbehind
  simp only [String.toUTF8_eq_toByteArray, String.toByteArray_append,
    ← String.size_toByteArray, ByteArray.append_assoc]
  exact hbehind

theorem lineStart_mono (source : String) : Monotone (lineStart source) := by
  apply monotone_nat_of_le_succ
  intro i
  rw [lineStart, lineStart, List.take_add_one, List.map_append, List.sum_append]
  exact Nat.le_add_right _ _

theorem lineStart_le_utf8ByteSize (source : String) (i : Nat) :
    lineStart source i ≤ source.utf8ByteSize := by
  have hsplit := congrArg byteLength
    (congrArg List.flatten (List.take_append_drop i (segments source.toList)))
  rw [List.flatten_append, byteLength_append, flatten_segments, byteLength_toList] at hsplit
  rw [lineStart_eq_byteLength]
  omega

/-- The content of a line ends within the line. -/
theorem stop_le_lineStart_succ {source : String} {i : Nat} {line : Line}
    (h : (lines source)[i]? = some line) :
    lineStart source i + line.content.utf8ByteSize ≤ lineStart source (i + 1) := by
  obtain ⟨before, -, -, hbefore, hstop⟩ := exists_split h
  omega

/-- A line with another one behind it has an ending. -/
theorem ending_chars_ne_nil {source : String} {i j : Nat} {line line' : Line}
    (h : (lines source)[i]? = some line) (h' : (lines source)[j]? = some line') (hij : i < j) :
    line.ending.chars ≠ [] := by
  rw [getElem?_lines, Option.map_eq_some_iff] at h h'
  obtain ⟨seg, hseg, rfl⟩ := h
  obtain ⟨seg', hseg', -⟩ := h'
  obtain ⟨hi, hget⟩ := List.getElem?_eq_some_iff.1 hseg
  obtain ⟨hj, -⟩ := List.getElem?_eq_some_iff.1 hseg'
  -- A piece that is not the last one ends with a line feed.
  have hmem : seg ∈ (segments source.toList).dropLast := by
    rw [← hget, ← List.getElem_dropLast (by rw [List.length_dropLast]; omega)]
    exact List.getElem_mem _
  have hlast := (isCut_segments source.toList).getLast? seg hmem
  rw [Line.ofSegment, if_pos hlast]
  split
  · exact List.cons_ne_nil _ _
  · exact List.cons_ne_nil _ _

/-- Between the contents of two lines there is at least one byte. -/
theorem stop_lt_lineStart {source : String} {i j : Nat} {line line' : Line}
    (h : (lines source)[i]? = some line) (h' : (lines source)[j]? = some line') (hij : i < j) :
    lineStart source i + line.content.utf8ByteSize < lineStart source j := by
  obtain ⟨before, -, -, hbefore, hstop⟩ := exists_split h
  obtain ⟨c, cs, hending⟩ := List.exists_cons_of_ne_nil (ending_chars_ne_nil h h' hij)
  have hpos : 0 < byteLength line.ending.chars := by
    rw [hending, byteLength_cons]
    exact Nat.add_pos_left c.utf8Size_pos _
  have hnext : lineStart source (i + 1) ≤ lineStart source j := lineStart_mono source hij
  omega

/-!
## Texts put together

Behind a line feed a text is cut as if it began there, so the lines of a text
made of whole lines and a rest are those of the two parts (`lines_append`), and
the lines of the rest stand behind all bytes in front of it
(`lineStart_append`). `ofLines` writes a text line by line; to cut it again
gives the same pieces (`segments_ofLines`).
-/

/-- The text is made of whole lines: it is empty, or a line feed ends it. -/
def IsWhole (front : String) : Prop := ∀ c ∈ front.toList.getLast?, c = '\n'

theorem isWhole_empty : IsWhole "" := by simp [IsWhole]

theorem isWhole_append_lf (a : String) : IsWhole (a ++ "\n") := by
  simp [IsWhole]

/-! ### Two parts -/

/-- Nothing in front of a line feed decides where the text behind it is cut. -/
theorem segments_append {front : List Char} (hfront : ∀ c ∈ front.getLast?, c = '\n')
    (behind : List Char) : segments (front ++ behind) = segments front ++ segments behind := by
  apply List.splitBy_append
  intro c hc _ _
  simp [hfront c hc]

theorem lines_append {front : String} (hfront : IsWhole front) (behind : String) :
    lines (front ++ behind) = lines front ++ lines behind := by
  rw [lines, lines, lines, String.toList_append, segments_append hfront, List.map_append]

/-- A text without a line feed has at most one line. -/
theorem length_lines_le_one {x : String} (hx : '\n' ∉ x.toList) : (lines x).length ≤ 1 := by
  rw [lines, List.length_map]
  by_cases hne : x.toList = []
  · rw [hne, segments_nil]
    exact Nat.zero_le 1
  · rw [segments_of_not_mem hne hx, List.length_singleton]

/-- A line feed at its end makes it one line in any case. -/
theorem length_lines_append_lf {x : String} (hx : '\n' ∉ x.toList) :
    (lines (x ++ "\n")).length = 1 := by
  have hsegments : segments (x ++ "\n").toList = [x.toList ++ ['\n']] := by
    rw [String.toList_append]
    exact segments_append_singleton hx '\n'
  rw [lines, hsegments, List.map_singleton, List.length_singleton]

/-- The lines of a text take up all of its bytes. -/
theorem lineStart_length_lines (source : String) :
    lineStart source (lines source).length = source.utf8ByteSize := by
  rw [lines, List.length_map, lineStart_eq_byteLength, List.take_length, flatten_segments,
    byteLength_toList]

/-- The lines of the second part stand behind the bytes of the first. -/
theorem lineStart_append {front : String} (hfront : IsWhole front) (behind : String) (i : Nat) :
    lineStart (front ++ behind) ((lines front).length + i) =
      front.utf8ByteSize + lineStart behind i := by
  have hsize := lineStart_length_lines front
  rw [lines, List.length_map] at hsize ⊢
  rw [lineStart, List.take_length] at hsize
  rw [lineStart, String.toList_append, segments_append hfront, List.take_length_add_append,
    List.map_append, List.sum_append, hsize, lineStart]

/-! ### Line by line -/

/-- A text written line by line. -/
def ofLines (ls : List Line) : String := String.ofList (ls.flatMap Line.chars)

/-- A line as it can be written anywhere in a text: its content holds no line
feed, and a line feed ends it, with or without a carriage return. The content
may end with a carriage return of its own. -/
structure Line.Complete (l : Line) : Prop where
  not_mem : '\n' ∉ l.content.toList
  ended : l.ending ≠ .none

/-- The characters of a complete line up to its line feed. -/
theorem Line.Complete.exists_chars_eq {l : Line} (h : l.Complete) :
    ∃ a, '\n' ∉ a ∧ l.chars = a ++ ['\n'] ∧
      (a = l.content.toList ∨ a = l.content.toList ++ ['\r']) := by
  have hmem := h.not_mem
  cases hending : l.ending with
  | none => exact absurd hending h.ended
  | lf => exact ⟨l.content.toList, hmem, by simp [chars, hending, LineEnding.chars], .inl rfl⟩
  | crlf =>
    refine ⟨l.content.toList ++ ['\r'], ?_, by simp [chars, hending, LineEnding.chars], .inr rfl⟩
    simp [hmem]

/-- A text that was written line by line is cut into what was written. -/
theorem segments_ofLines {ls : List Line} (h : ∀ l ∈ ls, l.Complete) :
    segments (ofLines ls).toList = ls.map Line.chars := by
  rw [ofLines, String.toList_ofList]
  induction ls with
  | nil => rfl
  | cons l ls ih =>
    obtain ⟨hl, hls⟩ := List.forall_mem_cons.1 h
    obtain ⟨a, ha, hchars, -⟩ := hl.exists_chars_eq
    rw [List.flatMap_cons, List.map_cons, ← ih hls, hchars, List.append_assoc,
      List.singleton_append, segments_append_lf ha]

theorem lines_ofLines {ls : List Line} (h : ∀ l ∈ ls, l.Complete) :
    lines (ofLines ls) = ls.map fun l => Line.ofSegment l.chars := by
  rw [lines, segments_ofLines h, List.map_map]
  rfl

end Text

end GraphqlLiteral
