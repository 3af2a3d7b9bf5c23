import GraphqlLiteral.Cli.Command
import GraphqlLiteral.Proofs.Body.Division
import GraphqlLiteral.Proofs.Report.Append
import Mathlib

/-!
# What the check of a file is told as

A run of `check` ends with one of three statuses, and which it is depends on the
bytes under the path alone: 2 where there is no text (`NoText`), 1 where a line
has no value, 0 where every line has one. The refused lines are told one after
another, each with its number and its bytes in the file (`Describes`), and
counted at the end (`check_output_tells_file`).
-/

namespace GraphqlLiteral

namespace Text

/-- The lines of a text that have no value, each with the number of lines in
front of it. -/
def refusedLines (text : String) : List (Line × Nat) :=
  (lines text).zipIdx.filter fun bad => Body.isRefused bad.1.content

/-- The lines of `text` and the refused ones among them, said without a word about
how they are found. -/
structure ListsRefused (text : String) (ls : List Line) (refused : List (Line × Nat)) : Prop where
  /-- The text is cut behind every line feed, and the content of a line is its piece
  without the ending. -/
  cut : ∃ segs, IsCut text.toList segs ∧
    List.Forall₂ (fun seg (line : Line) => line.chars = seg ∧ IsContent seg line.content.toList)
      segs ls
  /-- A line is refused if its content has no value. -/
  mem_iff : ∀ line i, (line, i) ∈ refused ↔
    ls[i]? = some line ∧ Body.decode line.content = .error .invalid
  /-- The refused lines keep their order, and each is there once. -/
  increasing : refused.Pairwise fun bad bad' => bad.2 < bad'.2

theorem mem_refusedLines_iff {text : String} {line : Line} {i : Nat} :
    (line, i) ∈ refusedLines text ↔
      (lines text)[i]? = some line ∧ Body.decode line.content = .error .invalid := by
  rw [refusedLines, List.mem_filter, Body.isRefused_iff, List.mk_mem_zipIdx_iff_getElem?]

theorem listsRefused_refusedLines (text : String) :
    ListsRefused text (lines text) (refusedLines text) := by
  refine ⟨⟨_, isCut_segments _, forall₂_isContent_lines text⟩, fun _ _ => mem_refusedLines_iff, ?_⟩
  -- The numbers rise along the lines, and leaving some out keeps their order.
  apply List.Pairwise.filter
  rw [← List.pairwise_map, List.zipIdx_map_snd]
  exact List.pairwise_lt_range'

end Text

namespace Report

/-! ## The bad lines, one by one -/

/-- The loop over the rest of a row of lines, told line by line. The induction is on
the rest. The whole row stays the same in it, so the offset of a line is the size of
what stands in front of it there. -/
theorem badLinesFrom_eq_map_zipIdx {all : List Text.Line} (front behind : List Text.Line)
    (h : all = front ++ behind) :
    badLinesFrom front.length (front.map Text.Line.byteLength).sum behind =
      ((behind.zipIdx front.length).filter fun bad => Body.isRefused bad.1.content).map
        fun bad => badLineAt bad.2 ((all.take bad.2).map Text.Line.byteLength).sum bad.1 := by
  induction behind generalizing front with
  | nil => rfl
  | cons line behind ih =>
    have hfront : all.take front.length = front := by rw [h, List.take_left]
    have hlater := ih (front ++ [line]) (by rw [h, List.append_assoc, List.singleton_append])
    rw [List.length_append, List.length_singleton, List.map_append, List.sum_append,
      List.map_singleton, List.sum_singleton] at hlater
    rw [badLinesFrom, List.zipIdx_cons, List.filter_cons, Body.isRefused, hlater]
    cases Body.decode line.content with
    | ok v => rfl
    | error e =>
      rw [if_pos rfl, List.map_cons, hfront]
      rfl

theorem badLines_eq_map_refusedLines (text : String) :
    (ofSource text).badLines.toList =
      (Text.refusedLines text).map fun bad =>
        badLineAt bad.2 (Text.lineStart text bad.2) bad.1 := by
  have hloop := badLinesFrom_eq_map_zipIdx [] (Text.lines text) (List.nil_append _).symm
  simp only [Text.sum_byteLength_take_lines] at hloop
  rw [badLines_ofSource]
  exact hloop

end Report

namespace Cli

/-- The output of the program for the command line `check path`, whatever comes
behind it, where `files` says what stands under a path. -/
def checkCommand (files : String → Option File) (path : String) (more : List String) : Output :=
  (Command.ofArgs ("check" :: path :: more)).run fun p => File.read (files p)

/-- Why there is no text under `path`. -/
inductive NoText (path : String) : Option File → String → Prop where
  | missing : NoText path none ("cannot find file '" ++ path ++ "'")
  | directory : NoText path (some .directory)
      ("error reading '" ++ path ++ "': Is a directory (os error 21)")
  | locked : NoText path (some .locked) ("permission denied reading '" ++ path ++ "'")
  | barred {reason : String} : NoText path (some (.barred reason))
      ("error reading '" ++ path ++ "': " ++ reason)
  | notUTF8 {bytes : ByteArray} (h : ¬ bytes.IsValidUTF8) :
      NoText path (some (.regular bytes)) ("'" ++ path ++ "' contains invalid UTF-8 data")

/-- The problem `p` of a refused line of `text`. -/
structure LocatesLine (text : String) (bad : Text.Line × Nat) (p : Problem) : Prop where
  /-- The line begins behind those in front of it, and its ending does not count. -/
  undecodable : p = .undecodable (LongOffset.clamp (Text.lineStart text bad.2))
    (LongOffset.clamp bad.1.content.utf8ByteSize)
  /-- In a text that is not too long the span holds the bytes of the content. -/
  exact_bytes : text.utf8ByteSize ≤ 2 ^ 32 - 1 →
    p.span.start ≤ p.span.stop ∧ p.span.stop.toNat ≤ text.utf8ByteSize ∧
    text.toUTF8.extract p.span.start.toNat p.span.stop.toNat = bad.1.content.toUTF8

/-- What is told of a refused line of the file at `path`: one line says which it is
and where it is, and one more line gives each piece of advice. -/
def Describes (path text : String) (bad : Text.Line × Nat) (told : String) : Prop :=
  ∃ p, LocatesLine text bad p ∧
    told = path ++ ":" ++ toString (bad.2 + 1) ++ ": error: " ++ p.message ++ " (bytes " ++
      toString p.span.start.toNat ++ ".." ++ toString p.span.stop.toNat ++ ")\n" ++
      String.join (p.suggestions.map fun advice => "  = help: " ++ advice ++ "\n")

/-! ## Reading -/

theorem textOfBytes_toUTF8 (text : String) : textOfBytes text.toUTF8 = .ok text := by
  rw [textOfBytes, String.toUTF8_eq_toByteArray, String.fromUTF8?, dif_pos text.isValidUTF8]
  rfl

theorem textOfBytes_of_not_isValidUTF8 {bytes : ByteArray} (h : ¬ bytes.IsValidUTF8) :
    textOfBytes bytes = .error .notText := by
  rw [textOfBytes, String.fromUTF8?, dif_neg h]

/-- A path without a reason against it has a text. -/
theorem noText_or_exists_text (path : String) (file? : Option File) :
    (∃ reason, NoText path file? reason) ∨
      ∃ text : String, file? = some (.regular text.toUTF8) := by
  match file? with
  | none => exact .inl ⟨_, .missing⟩
  | some .directory => exact .inl ⟨_, .directory⟩
  | some .locked => exact .inl ⟨_, .locked⟩
  | some (.barred _) => exact .inl ⟨_, .barred⟩
  | some (.regular bytes) =>
    by_cases hvalid : bytes.IsValidUTF8
    · exact .inr ⟨String.ofByteArray bytes hvalid, rfl⟩
    · exact .inl ⟨_, .notUTF8 hvalid⟩

/-- What cannot be read is told in one line. -/
theorem check_of_noText {path reason : String} {file? : Option File}
    (h : NoText path file? reason) :
    check path (File.read file?) = ⟨.unreadable, [], ["error: " ++ reason]⟩ := by
  cases h with
  | missing => rfl
  | directory =>
    have htold : ReadError.message path (.other "Is a directory (os error 21)") =
        "error reading '" ++ path ++ "': Is a directory (os error 21)" := by
      show "error reading '" ++ path ++ "': " ++ "Is a directory (os error 21)" = _
      simp [String.append_assoc]
    rw [← htold]
    rfl
  | locked => rfl
  | barred => rfl
  | notUTF8 hvalid =>
    rw [File.read, textOfBytes_of_not_isValidUTF8 hvalid]
    rfl

/-! ## Telling -/

theorem locatesLine_of_mem {text : String} {bad : Text.Line × Nat}
    (hbad : bad ∈ Text.refusedLines text) :
    LocatesLine text bad
      (Report.badLineAt bad.2 (Text.lineStart text bad.2) bad.1).problem := by
  obtain ⟨hline, hrefused⟩ := Text.mem_refusedLines_iff.1 hbad
  refine ⟨rfl, ?_⟩
  intro hsize
  obtain ⟨span, hspan, hstart, hstop⟩ :=
    Report.exists_span_badLineAt hsize hline ⟨_, hrefused⟩
  have hnext := Text.stop_le_lineStart_succ hline
  have hend := Text.lineStart_le_utf8ByteSize text (bad.2 + 1)
  rw [hspan, UInt32.le_iff_toNat_le]
  show span.start.toNat ≤ span.stop.toNat ∧ span.stop.toNat ≤ _ ∧
    text.toUTF8.extract span.start.toNat span.stop.toNat = _
  rw [hstart, hstop]
  exact ⟨by omega, by omega, Text.extract_toUTF8_of_slice? (Text.slice?_lineStart hline)⟩

theorem describes_diagnostic {path text : String} {bad : Text.Line × Nat}
    (hbad : bad ∈ Text.refusedLines text) :
    Describes path text bad
      (Output.unlines
        (diagnostic path (Report.badLineAt bad.2 (Text.lineStart text bad.2) bad.1))) := by
  have hnumber : (Report.badLineAt bad.2 (Text.lineStart text bad.2) bad.1).line = bad.2 + 1 := rfl
  refine ⟨_, locatesLine_of_mem hbad, ?_⟩
  rw [diagnostic, Output.unlines_cons, Output.unlines, List.map_map, ← String.toList_inj]
  simp [Span.text, Function.comp_def, hnumber]

theorem isClean_ofSource_eq (text : String) :
    (Report.ofSource text).isClean = (Text.refusedLines text).isEmpty := by
  rw [Report.isClean, ← Array.isEmpty_toList, Report.badLines_eq_map_refusedLines,
    List.isEmpty_map]

theorem size_badLines_ofSource (text : String) :
    (Report.ofSource text).badLines.size = (Text.refusedLines text).length := by
  rw [← Array.length_toList, Report.badLines_eq_map_refusedLines, List.length_map]

theorem outputOfReport_of_nil (path : String) {text : String}
    (h : Text.refusedLines text = []) :
    outputOfReport path (Report.ofSource text) =
      ⟨.ok, [path ++ ": " ++ toString (Text.lines text).length ++ " literal(s) OK"], []⟩ := by
  rw [outputOfReport, isClean_ofSource_eq, h, successSummary, Report.linesChecked_ofSource]
  rfl

theorem outputOfReport_of_ne_nil (path : String) {text : String}
    (h : Text.refusedLines text ≠ []) :
    outputOfReport path (Report.ofSource text) =
      ⟨.invalid, [], ((Text.refusedLines text).flatMap fun bad =>
          diagnostic path (Report.badLineAt bad.2 (Text.lineStart text bad.2) bad.1)) ++
        [path ++ ": " ++ toString (Text.refusedLines text).length ++ " of " ++
          toString (Text.lines text).length ++ " literal(s) failed to decode"]⟩ := by
  have hempty : (Text.refusedLines text).isEmpty = false := by simpa using h
  rw [outputOfReport, isClean_ofSource_eq, hempty, failureSummary, size_badLines_ofSource,
    Report.linesChecked_ofSource, Report.badLines_eq_map_refusedLines, List.flatMap_map]
  rfl

/-- The text on the error output: what is told of the refused lines, one after
another, and then their number. -/
theorem exists_stderr_outputOfReport (path : String) {text : String}
    (h : Text.refusedLines text ≠ []) :
    ∃ told, List.Forall₂ (Describes path text) (Text.refusedLines text) told ∧
      (outputOfReport path (Report.ofSource text)).stderr =
        String.join told ++ path ++ ": " ++ toString (Text.refusedLines text).length ++ " of " ++
          toString (Text.lines text).length ++ " literal(s) failed to decode\n" := by
  refine ⟨(Text.refusedLines text).map fun bad => Output.unlines
    (diagnostic path (Report.badLineAt bad.2 (Text.lineStart text bad.2) bad.1)), ?_, ?_⟩
  · rw [List.forall₂_map_right_iff, List.forall₂_same]
    exact fun bad hbad => describes_diagnostic hbad
  · rw [outputOfReport_of_ne_nil path h, Output.stderr, Output.unlines_append,
      Output.unlines_flatMap, Output.unlines_cons, ← String.toList_inj]
    simp

/-- The check of a file, from its bytes to what is printed. Under a path there is
either a text or a reason why there is none. The reason gives status 2 and one
line. A text whose lines all have a value gives status 0 and one line with their
number. Of any other text each refused line is told, in their order, and then they
are counted; the status is 1. In a file that spans can address, the bytes of a
printed span are those of the line. -/
theorem check_output_tells_file (files : String → Option File) (path : String)
    (more : List String) :
    ((∃ reason, NoText path (files path) reason) ∨
      ∃ text : String, files path = some (.regular text.toUTF8)) ∧
    (∀ reason, NoText path (files path) reason →
      (checkCommand files path more).status.code = 2 ∧
      (checkCommand files path more).stdout = "" ∧
      (checkCommand files path more).stderr = "error: " ++ reason ++ "\n") ∧
    ∀ text : String, files path = some (.regular text.toUTF8) →
      Text.ListsRefused text (Text.lines text) (Text.refusedLines text) ∧
      (Text.refusedLines text = [] →
        (checkCommand files path more).status.code = 0 ∧
        (checkCommand files path more).stdout =
          path ++ ": " ++ toString (Text.lines text).length ++ " literal(s) OK\n" ∧
        (checkCommand files path more).stderr = "") ∧
      (Text.refusedLines text ≠ [] →
        (checkCommand files path more).status.code = 1 ∧
        (checkCommand files path more).stdout = "" ∧
        ∃ told, List.Forall₂ (Describes path text) (Text.refusedLines text) told ∧
          (checkCommand files path more).stderr = String.join told ++
            path ++ ": " ++ toString (Text.refusedLines text).length ++ " of " ++
              toString (Text.lines text).length ++ " literal(s) failed to decode\n") := by
  have hcheck : checkCommand files path more = check path (File.read (files path)) := rfl
  rw [hcheck]
  refine ⟨noText_or_exists_text path (files path), ?_, ?_⟩
  · intro reason hreason
    rw [check_of_noText hreason]
    exact ⟨rfl, rfl, by simp [Output.stderr, Output.unlines]⟩
  · intro text htext
    have hreport : check path (File.read (files path)) =
        outputOfReport path (Report.ofSource text) := by
      rw [htext, File.read, textOfBytes_toUTF8]
      rfl
    rw [hreport]
    refine ⟨Text.listsRefused_refusedLines text, ?_, ?_⟩
    · intro hgood
      rw [outputOfReport_of_nil path hgood]
      exact ⟨rfl, by simp [Output.stdout, Output.unlines, String.append_assoc], rfl⟩
    · intro hbad
      refine ⟨?_, ?_, exists_stderr_outputOfReport path hbad⟩
      · rw [outputOfReport_of_ne_nil path hbad]
        rfl
      · rw [outputOfReport_of_ne_nil path hbad]
        rfl

/-- Paths to nothing, to a directory and to what is behind a file, a file without a
bad line, and one with two of them, the first with two characters at its end. -/
theorem check_output_of_five_paths :
    let good := "é\n"
    let bad := "a\r\n\\q\r\né\\uDC00"
    let files : String → Option File := fun path =>
      if path = "good" then some (.regular good.toUTF8)
      else if path = "bad" then some (.regular bad.toUTF8)
      else if path = "dir" then some .directory
      else if path = "good/x" then some (.barred "Not a directory (os error 20)")
      else none
    let help :=
      "  = help: valid escapes are: \\\", \\\\, \\/, \\b, \\f, \\n, \\r, \\t, \\uXXXX, " ++
      "\\u\x7bX...\x7d\n  = help: characters above U+FFFF need a surrogate pair " ++
      "(\\uD83D\\uDE00) or braces (\\u\x7b1F600\x7d)\n"
    (NoText "none" (files "none") "cannot find file 'none'" ∧
      (checkCommand files "none" []).status.code = 2) ∧
    (NoText "dir" (files "dir") "error reading 'dir': Is a directory (os error 21)" ∧
      (checkCommand files "dir" []).status.code = 2) ∧
    (NoText "good/x" (files "good/x") "error reading 'good/x': Not a directory (os error 20)" ∧
      (checkCommand files "good/x" []).stderr =
        "error: error reading 'good/x': Not a directory (os error 20)\n") ∧
    (files "good" = some (.regular good.toUTF8) ∧ Text.refusedLines good = [] ∧
      (checkCommand files "good" []).stdout = "good: 1 literal(s) OK\n") ∧
    files "bad" = some (.regular bad.toUTF8) ∧ bad.utf8ByteSize ≤ 2 ^ 32 - 1 ∧
      Text.refusedLines bad = [(⟨"\\q", .crlf⟩, 1), (⟨"é\\uDC00", .none⟩, 2)] ∧
      (checkCommand files "bad" ["none"]).status.code = 1 ∧
      (checkCommand files "bad" ["none"]).stderr =
        "bad:2: error: invalid Unicode escape sequence in string literal (bytes 3..5)\n" ++ help ++
        "bad:3: error: invalid Unicode escape sequence in string literal (bytes 7..15)\n" ++ help ++
        "bad: 2 of 3 literal(s) failed to decode\n" ∧
      ∃ p, LocatesLine bad (⟨"\\q", .crlf⟩, 1) p ∧
        bad.toUTF8.extract p.span.start.toNat p.span.stop.toNat = "\\q".toUTF8 := by
  intro good bad files help
  have hnone : NoText "none" (files "none") "cannot find file 'none'" := .missing
  have hdir : NoText "dir" (files "dir") "error reading 'dir': Is a directory (os error 21)" :=
    .directory
  have hbehind : NoText "good/x" (files "good/x")
      "error reading 'good/x': Not a directory (os error 20)" := .barred
  have hclean : Text.refusedLines good = [] := by cbv
  have hrefused : Text.refusedLines bad =
      [(⟨"\\q", .crlf⟩, 1), (⟨"é\\uDC00", .none⟩, 2)] := by cbv
  have hne : Text.refusedLines bad ≠ [] := by
    rw [hrefused]
    exact List.cons_ne_nil _ _
  have hsize : bad.utf8ByteSize ≤ 2 ^ 32 - 1 := by decide
  have hmissing := (check_output_tells_file files "none" []).2.1 _ hnone
  have hunread := (check_output_tells_file files "dir" []).2.1 _ hdir
  have hunreached := (check_output_tells_file files "good/x" []).2.1 _ hbehind
  have hcount : toString (Text.lines good).length = "1" := by cbv
  obtain ⟨-, hok, -⟩ := ((check_output_tells_file files "good" []).2.2 good rfl).2.1 hclean
  rw [hcount] at hok
  obtain ⟨hinvalid, -, told, htold, herr⟩ :=
    ((check_output_tells_file files "bad" ["none"]).2.2 bad rfl).2.2 hne
  have hthree : (Text.lines bad).length = 3 := by cbv
  rw [hrefused] at htold herr
  rw [hthree] at herr
  obtain _ | ⟨⟨p, hp, rfl⟩, _ | ⟨⟨q, hq, rfl⟩, _ | _⟩⟩ := htold
  have hfirst : p = .invalidEscape ⟨3, 5⟩ := hp.undecodable.trans (by cbv)
  have hsecond : q = .invalidEscape ⟨7, 15⟩ := hq.undecodable.trans (by cbv)
  have hbytes := (hp.exact_bytes hsize).2.2
  refine ⟨⟨hnone, hmissing.1⟩, ⟨hdir, hunread.1⟩, ⟨hbehind, hunreached.2.2⟩,
    ⟨rfl, hclean, by simpa using hok⟩, rfl, hsize, hrefused, hinvalid, ?_, p, hp, hbytes⟩
  have hhelp (s : Span) : String.join ((Problem.invalidEscape s).suggestions.map fun advice =>
      "  = help: " ++ advice ++ "\n") = help := by
    simp [Problem.suggestions, help]
  have hdigits : Nat.repr 2 = "2" ∧ Nat.repr 3 = "3" ∧ Nat.repr 5 = "5" ∧ Nat.repr 7 = "7" ∧
      Nat.repr 15 = "15" := ⟨rfl, rfl, rfl, rfl, rfl⟩
  rw [herr, hfirst, hsecond, hhelp, hhelp]
  simp [Problem.message, Problem.span, EscapeError.message, hdigits, String.append_assoc]

end Cli

end GraphqlLiteral
