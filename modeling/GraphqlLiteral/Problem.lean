import GraphqlLiteral.Escape

/-!
# Places and problems

A place in a source is counted in bytes, in 32 bits. What is wrong with a string
literal is told with its place there, as far as 32 bits reach.
-/

namespace GraphqlLiteral

/-!
## Byte offsets

A place in a source is a 32-bit count of UTF-8 bytes. Sums are taken in 64 bits
before they are held against that limit. Both kinds stop at their largest value
instead of wrapping: `toNat_clamp` and `toNat_advance` give the exact numbers.
-/

/-- The number of bytes in front of a place in a source. -/
abbrev Offset := UInt32

/-- An offset or a length that has not yet been held against the limit of
`Offset`. -/
abbrev LongOffset := UInt64

namespace LongOffset

/-- A number as a 64-bit offset; a larger number becomes the largest one. -/
def clamp (n : Nat) : LongOffset := UInt64.ofNatClamp n

/-- The offset `n` bytes on, or the largest one. -/
def advance (a n : LongOffset) : LongOffset := clamp (a.toNat + n.toNat)

theorem toNat_clamp (n : Nat) : (clamp n).toNat = min n (UInt64.size - 1) := by
  unfold clamp UInt64.ofNatClamp
  split
  · next h =>
    rw [UInt64.toNat_ofNatLT]
    omega
  · next h =>
    rw [UInt64.toNat_ofNatLT]
    omega

theorem toNat_advance (a n : LongOffset) :
    (a.advance n).toNat = min (a.toNat + n.toNat) (UInt64.size - 1) := toNat_clamp _

end LongOffset

namespace Offset

/-- The largest offset. -/
def limit : Offset := 0xFFFFFFFF

/-- A number as an offset; a larger number becomes `limit`. -/
def clamp (n : Nat) : Offset := UInt32.ofNatClamp n

/-- The offset `n` bytes on, or `limit`. -/
def advance (a n : Offset) : Offset := clamp (a.toNat + n.toNat)

theorem toNat_clamp (n : Nat) : (clamp n).toNat = min n (UInt32.size - 1) := by
  unfold clamp UInt32.ofNatClamp
  split
  · next h =>
    rw [UInt32.toNat_ofNatLT]
    omega
  · next h =>
    rw [UInt32.toNat_ofNatLT]
    omega

theorem toNat_advance (a n : Offset) :
    (a.advance n).toNat = min (a.toNat + n.toNat) (UInt32.size - 1) := toNat_clamp _

end Offset

/-!
## Spans

The bytes of a source from one offset up to another. `Span.ofRange` narrows a
range that was computed in 64 bits and says which end does not fit.
-/

/-- The bytes from `start` up to `stop`, the byte at `stop` left out. Nothing
keeps `start` below `stop`. -/
structure Span where
  start : Offset
  stop : Offset
  deriving DecidableEq, Repr

/-- The end of a range that lies past `Offset.limit`. -/
inductive SpanError where
  | startTooLarge (offset : LongOffset)
  | endTooLarge (offset : LongOffset)
  deriving DecidableEq, Repr

namespace SpanError

/-- The offset that does not fit. -/
def offset : SpanError → LongOffset
  | startTooLarge n => n
  | endTooLarge n => n

/-- The error as it is told to a person. -/
def message : SpanError → String
  | startTooLarge n => "span start offset " ++ toString n.toNat ++ " does not fit in 32 bits"
  | endTooLarge n => "span end offset " ++ toString n.toNat ++ " does not fit in 32 bits"

end SpanError

namespace Span

/-- The span as it is told to a person. -/
def text (s : Span) : String := toString s.start.toNat ++ ".." ++ toString s.stop.toNat

/-- The span of a range. Of two ends that do not fit, the start is the one
reported. -/
def ofRange (start stop : LongOffset) : Except SpanError Span :=
  if Offset.limit.toUInt64 < start then .error (.startTooLarge start)
  else if Offset.limit.toUInt64 < stop then .error (.endTooLarge stop)
  else .ok ⟨start.toUInt32, stop.toUInt32⟩

end Span

/-!
## Problems

What can be wrong with a string literal, where, and what to do about it.
`Problem.undecodable` places the problem of a body that has no value, also when
the body reaches past the last offset that a span can hold.
-/

/-- Something wrong with a string literal, with its place in the source. -/
inductive Problem where
  /-- The body at `span` has no value. -/
  | invalidEscape (span : Span)
  /-- The token at `span` lacks a quote at one of its ends. -/
  | unterminated (span : Span)
  /-- The body at `start` has no value, and it ends past `Offset.limit`. -/
  | pastLimit (start : Offset)
  deriving DecidableEq, Repr

/-- The problems of a document, in the order in which they were met. -/
abbrev ProblemLog := Array Problem

namespace Problem

/-- Where the problem is. A body that ends past the limit is shown up to the
limit. -/
def span : Problem → Span
  | invalidEscape s => s
  | unterminated s => s
  | pastLimit start => ⟨start, Offset.limit⟩

/-- What is wrong. -/
def message : Problem → String
  | invalidEscape _ => EscapeError.invalid.message
  | unterminated _ => "unterminated string literal"
  | pastLimit _ => EscapeError.invalid.message ++ " past the 4 GiB offset limit"

/-- What to do about it, the most helpful advice first. -/
def suggestions : Problem → List String
  | invalidEscape _ =>
    ["valid escapes are: \\\", \\\\, \\/, \\b, \\f, \\n, \\r, \\t, \\uXXXX, \\u\x7bX...\x7d",
      "characters above U+FFFF need a surrogate pair (\\uD83D\\uDE00) or braces (\\u\x7b1F600\x7d)"]
  | unterminated _ => ["add closing \x60\"\x60"]
  | pastLimit _ => ["split the document; sources are limited to 4 GiB"]

/-- The place and the message on one line. -/
def text (p : Problem) : String := p.span.text ++ ": " ++ p.message

/-- The problem of a body of `len` bytes at `start` that has no value. -/
def undecodable (start len : LongOffset) : Problem :=
  match Span.ofRange start (start.advance len) with
  | .ok span => .invalidEscape span
  | .error _ => .pastLimit (Offset.clamp start.toNat)

end Problem

end GraphqlLiteral
