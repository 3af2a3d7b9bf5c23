import GraphqlLiteral.CodePoint

/-!
# Escapes

What may stand behind a backslash in the body of a string literal: one of eight
characters with a fixed meaning, or a Unicode escape that writes a code point
by its number. An escape is read by itself first. Its character comes after that, since
the number may be half of a surrogate pair.
-/

namespace GraphqlLiteral

/-!
## The two kinds of escape

A simple escape has its meaning at once. A Unicode escape keeps its number and the
form it was written in.
-/

/-- Why a body has no value. Unknown escapes, cut-off or misspelt numbers, code
points out of range and surrogates without a partner are one cause. -/
inductive EscapeError where
  | invalid
  deriving DecidableEq, Repr

/-- The error as it is told to a person. -/
def EscapeError.message : EscapeError → String
  | .invalid => "invalid Unicode escape sequence in string literal"

/-- The two ways to write the number of a Unicode escape. -/
inductive UnicodeForm where
  /-- Four digits. -/
  | fixed
  /-- Any number of digits between braces. -/
  | braced
  deriving DecidableEq, Repr

/-- A Unicode escape: the code point and the form it was written in. -/
structure UnicodeEscape where
  form : UnicodeForm
  value : CodePoint
  deriving DecidableEq, Repr

/-- One escape. -/
inductive Escape where
  /-- A backslash and one character, which together mean `c`. -/
  | simple (c : Char)
  | unicode (escape : UnicodeEscape)
  deriving DecidableEq, Repr

namespace Escape

/-- The number that the escape writes, if it writes one. -/
def codePoint? : Escape → Option CodePoint
  | simple _ => none
  | unicode u => some u.value

/-- The meaning of a character right behind a backslash, for the eight
characters that have one by themselves. -/
def simpleChar? : Char → Option Char
  | '"' => some '"'
  | '\\' => some '\\'
  | '/' => some '/'
  | 'b' => some '\x08'
  | 'f' => some '\x0c'
  | 'n' => some '\n'
  | 'r' => some '\r'
  | 't' => some '\t'
  | _ => none

end Escape

/-!
## Reading one escape

`Escape.read` takes the text right behind a backslash and gives the one escape
that stands there with the text behind it. It never looks further. Every
success takes at least one character (`Escape.length_read_lt`), so a reader
that goes on with the rest comes to an end.
-/

namespace UnicodeEscape

/-- Reads exactly `count` digits onto `value`. -/
def readDigits : Nat → CodePoint → List Char → Except EscapeError (CodePoint × List Char)
  | 0, value, text => .ok (value, text)
  | _ + 1, _, [] => .error .invalid
  | count + 1, value, c :: text =>
    match Hex.digit? c with
    | none => .error .invalid
    | some digit => readDigits count (Hex.push value digit) text

/-- Reads the digits before a closing brace onto `value`, and the brace; `count`
digits came before. One digit is the least. The value is held against
`CodePoint.maxScalar` after each digit, so no run of digits is long enough to
overflow the word. -/
def readToBrace (value : CodePoint) (count : Nat) :
    List Char → Except EscapeError (CodePoint × List Char)
  | [] => .error .invalid
  | c :: text =>
    if c = '}' ∧ 0 < count then .ok (value, text)
    else
      match Hex.digit? c with
      | none => .error .invalid
      | some digit =>
        if CodePoint.maxScalar < Hex.push value digit then .error .invalid
        else readToBrace (Hex.push value digit) (count + 1) text

/-- Reads a Unicode escape from the text right behind its `u`. An opening brace
decides for the braced form. -/
def read : List Char → Except EscapeError (UnicodeEscape × List Char)
  | '{' :: text =>
    match readToBrace 0 0 text with
    | .error e => .error e
    | .ok (value, rest) => .ok (⟨.braced, value⟩, rest)
  | text =>
    match readDigits 4 0 text with
    | .error e => .error e
    | .ok (value, rest) => .ok (⟨.fixed, value⟩, rest)

/-- Reading digits takes one character for each. -/
theorem length_readDigits {count : Nat} {value v : CodePoint} {text rest : List Char}
    (h : readDigits count value text = .ok (v, rest)) : text.length = rest.length + count := by
  induction count generalizing value text with
  | zero =>
    simp only [readDigits, Except.ok.injEq, Prod.mk.injEq] at h
    simp [h.2]
  | succ count ih =>
    cases text with
    | nil => simp [readDigits] at h
    | cons c text =>
      simp only [readDigits] at h
      split at h
      · simp at h
      · have := ih h
        simp only [List.length_cons]
        omega

/-- Reading up to a brace takes at least the brace. -/
theorem length_readToBrace_lt {value v : CodePoint} {count : Nat} {text rest : List Char}
    (h : readToBrace value count text = .ok (v, rest)) : rest.length < text.length := by
  induction text generalizing value count with
  | nil => simp [readToBrace] at h
  | cons c text ih =>
    simp only [readToBrace] at h
    split at h
    · simp only [Except.ok.injEq, Prod.mk.injEq] at h
      simp [h.2]
    · split at h
      · simp at h
      · split at h
        · simp at h
        · have := ih h
          simp only [List.length_cons]
          omega

/-- A Unicode escape takes at least one character behind its `u`. -/
theorem length_read_lt {u : UnicodeEscape} {text rest : List Char}
    (h : read text = .ok (u, rest)) : rest.length < text.length := by
  unfold read at h
  split at h
  · split at h
    · simp at h
    · next heq =>
      have := length_readToBrace_lt heq
      simp only [Except.ok.injEq, Prod.mk.injEq] at h
      simp only [List.length_cons, ← h.2]
      omega
  · split at h
    · simp at h
    · next heq =>
      have := length_readDigits heq
      simp only [Except.ok.injEq, Prod.mk.injEq] at h
      rw [← h.2]
      omega

end UnicodeEscape

namespace Escape

/-- Reads one escape from the text right behind its backslash. -/
def read : List Char → Except EscapeError (Escape × List Char)
  | [] => .error .invalid
  | 'u' :: text =>
    match UnicodeEscape.read text with
    | .error e => .error e
    | .ok (u, rest) => .ok (.unicode u, rest)
  | c :: text =>
    match simpleChar? c with
    | none => .error .invalid
    | some meaning => .ok (.simple meaning, text)

/-- An escape takes at least one character behind its backslash. -/
theorem length_read_lt {e : Escape} {text rest : List Char}
    (h : read text = .ok (e, rest)) : rest.length < text.length := by
  unfold read at h
  split at h
  · simp at h
  · split at h
    · simp at h
    · next heq =>
      have := UnicodeEscape.length_read_lt heq
      simp only [Except.ok.injEq, Prod.mk.injEq] at h
      simp only [List.length_cons, ← h.2]
      omega
  · split at h
    · simp at h
    · simp only [Except.ok.injEq, Prod.mk.injEq] at h
      simp [h.2]

end Escape

/-!
## The character of an escape

A simple escape and a Unicode escape outside the surrogates mean one character
each. A leading surrogate means nothing alone: it takes the Unicode escape
right behind it along, which must write a trailing surrogate. The two halves
may be in different forms, since only the numbers count.

`Escape.readMeaning` reads an escape and gives its character at once. It takes
at least one character of the text (`Escape.length_readMeaning_lt`).
-/

namespace UnicodeEscape

/-- The character of a Unicode escape in front of `text`, with what is left of
the text. -/
def meaning (u : UnicodeEscape) (text : List Char) : Except EscapeError (Char × List Char) :=
  match u.value.band with
  | .scalar =>
    match u.value.toChar? with
    | none => .error .invalid
    | some c => .ok (c, text)
  | .trailing => .error .invalid
  | .leading =>
    match text with
    | '\\' :: 'u' :: behind =>
      match read behind with
      | .error e => .error e
      | .ok (partner, rest) =>
        if partner.value.IsTrailing then
          match (u.value.combine partner.value).toChar? with
          | none => .error .invalid
          | some c => .ok (c, rest)
        else .error .invalid
    | _ => .error .invalid

theorem length_meaning_le {u : UnicodeEscape} {c : Char} {text rest : List Char}
    (h : u.meaning text = .ok (c, rest)) : rest.length ≤ text.length := by
  unfold meaning at h
  split at h
  · split at h
    · simp at h
    · simp only [Except.ok.injEq, Prod.mk.injEq] at h
      simp [h.2]
  · simp at h
  · split at h
    · split at h
      · simp at h
      · next heq =>
        have := length_read_lt heq
        split at h
        · split at h
          · simp at h
          · simp only [Except.ok.injEq, Prod.mk.injEq] at h
            simp only [List.length_cons, ← h.2]
            omega
        · simp at h
    · simp at h

end UnicodeEscape

namespace Escape

/-- The character of an escape in front of `text`, with what is left of the
text. -/
def meaning : Escape → List Char → Except EscapeError (Char × List Char)
  | simple c, text => .ok (c, text)
  | unicode u, text => u.meaning text

theorem length_meaning_le {e : Escape} {c : Char} {text rest : List Char}
    (h : e.meaning text = .ok (c, rest)) : rest.length ≤ text.length := by
  cases e with
  | simple d =>
    simp only [meaning, Except.ok.injEq, Prod.mk.injEq] at h
    simp [h.2]
  | unicode u => exact UnicodeEscape.length_meaning_le h

/-- The character that the text right behind a backslash means, with what is
left of the text. -/
def readMeaning (behind : List Char) : Except EscapeError (Char × List Char) :=
  match read behind with
  | .error e => .error e
  | .ok (escape, text) => escape.meaning text

/-- An escape with its partner takes at least one character behind its
backslash. -/
theorem length_readMeaning_lt {c : Char} {behind rest : List Char}
    (h : readMeaning behind = .ok (c, rest)) : rest.length < behind.length := by
  unfold readMeaning at h
  split at h
  · simp at h
  · next hread => exact Nat.lt_of_le_of_lt (length_meaning_le h) (length_read_lt hread)

end Escape

end GraphqlLiteral
