import GraphqlLiteral.Body
import GraphqlLiteral.Problem

/-!
# Checking a document of bodies

A document holds one body on each line. A check decodes them all and lists the
lines that have no value, each with its number and the bytes that its content takes
up in the document.
-/

namespace GraphqlLiteral

/-!
## Lines

A text is cut behind every line feed. A line keeps its content and its ending
apart; a carriage return belongs to the ending only in front of a line feed, so
the last line keeps one that has no line feed behind it. No line loses a
character: `Line.chars_ofSegment`.
-/

namespace Text

/-- How a line ends. -/
inductive LineEnding where
  /-- With the text itself: the last line has no line feed. -/
  | none
  /-- With a line feed. -/
  | lf
  /-- With a carriage return and a line feed. -/
  | crlf
  deriving DecidableEq, Repr

/-- The characters of an ending. -/
def LineEnding.chars : LineEnding → List Char
  | .none => []
  | .lf => ['\n']
  | .crlf => ['\r', '\n']

/-- One line of a text. -/
structure Line where
  content : String
  ending : LineEnding
  deriving DecidableEq, Repr

/-- The pieces of a text, each up to and with its line feed. -/
def segments (cs : List Char) : List (List Char) := cs.splitBy fun c _ => c != '\n'

namespace Line

/-- The characters of a line with its ending. -/
def chars (l : Line) : List Char := l.content.toList ++ l.ending.chars

/-- The size of a line in UTF-8, its ending counted. -/
def byteLength (l : Line) : Nat := (String.ofList l.chars).utf8ByteSize

/-- Takes the ending off one piece of a text. -/
def ofSegment (segment : List Char) : Line :=
  if segment.getLast? = some '\n' then
    if segment.dropLast.getLast? = some '\r' then
      ⟨String.ofList segment.dropLast.dropLast, .crlf⟩
    else ⟨String.ofList segment.dropLast, .lf⟩
  else ⟨String.ofList segment, .none⟩

/-- A line holds every character of its piece. -/
theorem chars_ofSegment (segment : List Char) : (ofSegment segment).chars = segment := by
  unfold ofSegment
  split
  · next hlf =>
    obtain ⟨line, rfl⟩ := List.getLast?_eq_some_iff.1 hlf
    rw [List.dropLast_concat]
    split
    · next hcr =>
      obtain ⟨content, rfl⟩ := List.getLast?_eq_some_iff.1 hcr
      simp [chars, LineEnding.chars]
    · simp [chars, LineEnding.chars]
  · simp [chars, LineEnding.chars]

end Line

/-- The lines of a text. The empty text has none. -/
def lines (source : String) : List Line := (segments source.toList).map Line.ofSegment

end Text

/-!
## The check

A check goes from line to line with an offset that counts whole lines.
`Report.ofPart` begins at any place of a document, `Report.ofSource` at its first byte.
-/

/-- A line whose body has no value. The first line has number 1. -/
structure BadLine where
  line : Nat
  problem : Problem
  deriving DecidableEq, Repr

/-- What a check has found. -/
structure Report where
  linesChecked : Nat
  badLines : Array BadLine
  deriving DecidableEq, Repr

/-- A check under way: what it has found in the lines behind it, and the number
of bytes in front of the next line. -/
structure LineCheck where
  offset : Nat
  report : Report

namespace LineCheck

/-- A check in front of the first line of a text that stands at byte `base`. -/
def start (base : Nat) : LineCheck := ⟨base, ⟨0, #[]⟩⟩

/-- Decodes one more line. Its place counts the endings of all lines before it,
its length only its own content. -/
def next (c : LineCheck) (line : Text.Line) : LineCheck :=
  let number := c.report.linesChecked + 1
  let badLines := match Body.decode line.content with
    | .ok _ => c.report.badLines
    | .error _ =>
      c.report.badLines.push ⟨number, .undecodable (LongOffset.clamp c.offset)
        (LongOffset.clamp line.content.utf8ByteSize)⟩
  ⟨c.offset + line.byteLength, ⟨number, badLines⟩⟩

end LineCheck

namespace Report

/-- No line is bad. -/
def isClean (r : Report) : Bool := r.badLines.isEmpty

/-- The report on a text that stands at byte `base` of a larger document. Its
lines are counted from its own first line on, its bytes from the beginning of the
document. -/
def ofPart (base : Nat) (source : String) : Report :=
  ((Text.lines source).foldl LineCheck.next (LineCheck.start base)).report

/-- The report on a document. -/
def ofSource (source : String) : Report := ofPart 0 source

end Report

end GraphqlLiteral
