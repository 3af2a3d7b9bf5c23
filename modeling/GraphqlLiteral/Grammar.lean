import GraphqlLiteral.Escape

/-!
# What bodies are made of

Escapes and bodies told without a reader: how they are written, where a body breaks
off, and which text the numbers of a body are. The machines of the other modules are
held to these.
-/

namespace GraphqlLiteral

/-!
## How escapes are written

The spellings of an escape behind its backslash, told without a reader. A value
is the number that the digits write, of any length and in either case.
-/

/-- The ways to write a Unicode escape behind its backslash. -/
inductive UnicodeEscape.Spelled : UnicodeEscape → List Char → Prop where
  /-- A `u` and four digits. -/
  | fixed {digits : List Char} {value : CodePoint} :
      digits.length = 4 → (∀ c ∈ digits, Hex.IsDigit c) → value.toNat = Hex.value digits →
      Spelled ⟨.fixed, value⟩ ('u' :: digits)
  /-- A `u` and one or more digits between braces, for a number that is not too
  large. -/
  | braced {digits : List Char} {value : CodePoint} :
      digits ≠ [] → (∀ c ∈ digits, Hex.IsDigit c) → value.toNat = Hex.value digits →
      Hex.value digits ≤ 0x10FFFF →
      Spelled ⟨.braced, value⟩ ('u' :: '{' :: (digits ++ ['}']))

namespace Escape

/-- The eight characters with a meaning of their own behind a backslash, each
with that meaning. -/
def simpleMeanings : List (Char × Char) :=
  [('"', '"'), ('\\', '\\'), ('/', '/'), ('b', '\x08'), ('f', '\x0c'), ('n', '\n'),
   ('r', '\r'), ('t', '\t')]

/-- The ways to write an escape behind its backslash. -/
inductive Spelled : Escape → List Char → Prop where
  | simple {c meaning : Char} : (c, meaning) ∈ simpleMeanings → Spelled (.simple meaning) [c]
  | unicode {u : UnicodeEscape} {w : List Char} : u.Spelled w → Spelled (.unicode u) w

/-- The reader knows the same eight characters. -/
theorem simpleChar?_eq_some_iff {c meaning : Char} :
    simpleChar? c = some meaning ↔ (c, meaning) ∈ simpleMeanings := by
  unfold simpleChar? simpleMeanings
  split <;> simp_all [eq_comm]

end Escape

/-!
## How bodies are written

A body is a row of pieces, and each piece writes one character. `Division` says
so without a reader, and `BadTail` lists what may stand behind a backslash that
begins no piece.
-/

/-- A part of a body and the character that it writes. -/
structure Piece where
  written : List Char
  char : Char
  deriving DecidableEq, Repr

namespace Piece

/-- The part is an escape: it begins with a backslash. -/
def isEscape (p : Piece) : Bool := p.written.head? == some '\\'

/-- The parts that write a character. -/
inductive Valid : Piece → Prop where
  /-- A character that is no backslash writes itself. -/
  | plain {c : Char} : c ≠ '\\' → Valid ⟨[c], c⟩
  | simple {c meaning : Char} :
      (c, meaning) ∈ Escape.simpleMeanings → Valid ⟨['\\', c], meaning⟩
  /-- A Unicode escape writes the character of its number. A surrogate has
  none. -/
  | scalar {u : UnicodeEscape} {w : List Char} {c : Char} :
      u.Spelled w → c.val = u.value → Valid ⟨'\\' :: w, c⟩
  /-- Two adjacent Unicode escapes write a character above U+FFFF, ten bits
  each. -/
  | pair {lead trail : UnicodeEscape} {w w' : List Char} {c : Char} :
      lead.Spelled w → trail.Spelled w' → lead.value.IsLeading → trail.value.IsTrailing →
      c.toNat = 0x10000 + (lead.value.toNat - 0xD800) * 0x400 + (trail.value.toNat - 0xDC00) →
      Valid ⟨'\\' :: (w ++ '\\' :: w'), c⟩

end Piece

/-- A body cut into pieces that write a character each. -/
structure Division (raw : List Char) (pieces : List Piece) : Prop where
  valid : ∀ p ∈ pieces, p.Valid
  written : pieces.flatMap Piece.written = raw

/-- A text begins with a Unicode escape, backslash included, that writes a
trailing surrogate. -/
def StartsWithTrailing (text : List Char) : Prop :=
  ∃ (u : UnicodeEscape) (w rest : List Char),
    u.Spelled w ∧ u.value.IsTrailing ∧ text = '\\' :: (w ++ rest)

/-- What may stand behind a backslash that begins no piece. -/
inductive BadTail : List Char → Prop where
  /-- Nothing. -/
  | nothing : BadTail []
  /-- A character that means nothing behind a backslash. -/
  | unknown {c : Char} {rest : List Char} :
      c ≠ 'u' → (∀ meaning, (c, meaning) ∉ Escape.simpleMeanings) → BadTail (c :: rest)
  /-- A `u` without a brace, and not four digits behind it. -/
  | fixed {rest : List Char} :
      rest.head? ≠ some '{' → ¬ (4 ≤ rest.length ∧ ∀ c ∈ rest.take 4, Hex.IsDigit c) →
      BadTail ('u' :: rest)
  /-- An opening brace without a digit behind it. -/
  | noDigits {rest : List Char} :
      rest.takeWhile (fun c => decide (Hex.IsDigit c)) = [] → BadTail ('u' :: '{' :: rest)
  /-- An opening brace and digits that no closing brace follows. -/
  | unclosed {rest : List Char} :
      (rest.dropWhile fun c => decide (Hex.IsDigit c)).head? ≠ some '}' →
      BadTail ('u' :: '{' :: rest)
  /-- An opening brace and digits that write too large a number. -/
  | tooLarge {rest : List Char} :
      0x10FFFF < Hex.value (rest.takeWhile fun c => decide (Hex.IsDigit c)) →
      BadTail ('u' :: '{' :: rest)
  /-- A trailing surrogate. -/
  | trailing {u : UnicodeEscape} {w rest : List Char} :
      u.Spelled w → u.value.IsTrailing → BadTail (w ++ rest)
  /-- A leading surrogate without a trailing one right behind it. -/
  | leading {u : UnicodeEscape} {w rest : List Char} :
      u.Spelled w → u.value.IsLeading → ¬ StartsWithTrailing rest → BadTail (w ++ rest)

/-!
## Pairing by number

The value of a body depends on the numbers that it writes, not on how it writes
them. `Written` gives the spellings of one number, plain or escaped, and
`paired` the text of a row of numbers: a leading surrogate and the trailing one
right behind it are one character, and any other surrogate spoils the row.
`units16` writes a character in the 16-bit units that pairing reads.
-/

namespace CodePoint

/-- The spellings of a number in a body. -/
inductive Written : Nat → List Char → Prop where
  | plain {c : Char} : c ≠ '\\' → Written c.toNat [c]
  | simple {c meaning : Char} :
      (c, meaning) ∈ Escape.simpleMeanings → Written meaning.toNat ['\\', c]
  | unicode {u : UnicodeEscape} {w : List Char} :
      u.Spelled w → Written u.value.toNat ('\\' :: w)

/-- The number is the first half of a pair. -/
def isLead (v : Nat) : Bool := 0xD800 ≤ v && v ≤ 0xDBFF

/-- The number is the second half of a pair. -/
def isTrail (v : Nat) : Bool := 0xDC00 ≤ v && v ≤ 0xDFFF

/-- The character of a pair. -/
def pairChar (lead trail : Nat) : Char :=
  Char.ofNat (0x10000 + (lead - 0xD800) * 0x400 + (trail - 0xDC00))

/-- The text of a row of numbers, each at most 10FFFF. -/
def paired : List Nat → Option (List Char)
  | [] => some []
  | [v] => if isLead v || isTrail v then none else some [Char.ofNat v]
  | v :: w :: vs =>
    if isLead v then
      if isTrail w then (paired vs).map (pairChar v w :: ·) else none
    else if isTrail v then none
    else (paired (w :: vs)).map (Char.ofNat v :: ·)

/-- A character in 16-bit units. -/
def units16 (c : Char) : List Nat :=
  if c.toNat < 0x10000 then [c.toNat]
  else [0xD800 + (c.toNat - 0x10000) / 0x400, 0xDC00 + (c.toNat - 0x10000) % 0x400]

end CodePoint

/-!
## Braces around a run of digits

Another reader for the braced form. It takes the longest run of digits as a
whole, and only then looks at what closes it and at how large a number of any
size it writes. It never stops early and has no word to overflow.
-/

namespace UnicodeEscape

/-- Reads the digits before a closing brace, and the brace, from a whole run. -/
def readRun (text : List Char) : Except EscapeError (CodePoint × List Char) :=
  let run := text.takeWhile fun c => decide (Hex.IsDigit c)
  match text.dropWhile fun c => decide (Hex.IsDigit c) with
  | '}' :: rest =>
    if run = [] then .error .invalid
    else if 0x10FFFF < Hex.value run then .error .invalid
    else .ok (UInt32.ofNat (Hex.value run), rest)
  | _ => .error .invalid

end UnicodeEscape

end GraphqlLiteral
