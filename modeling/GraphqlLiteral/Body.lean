import GraphqlLiteral.Escape
import GraphqlLiteral.Text.Bytes

/-!
# Decoding the body of a string literal

The body is what stands between the quotes, with its escapes still in it.
`Body.decode` gives the text that it denotes, or refuses it as a whole. Two more
machines come to the same by other ways.
-/

namespace GraphqlLiteral

/-!
## Step by step

A `Decoding` holds the text written so far and the body still to be read. One step
copies the plain characters up to the next backslash and then takes in one escape,
with its partner where it needs one.
-/

/-- Decoding under way. -/
structure Decoding where
  /-- The value of what has been read. -/
  written : String
  /-- The body from here on. -/
  unread : List Char

namespace Decoding

/-- What one step comes to. -/
inductive Step where
  /-- The body held no further backslash, and `text` is its value. -/
  | finished (text : String)
  /-- One escape has been taken in. -/
  | going (next : Decoding)

/-- Every character but the backslash stands for itself. -/
def isPlain (c : Char) : Bool := c != '\\'

/-- Copies the plain characters that come next, then takes in the escape behind
them, if there is one. -/
def step (d : Decoding) : Except EscapeError Step :=
  let written := d.written ++ String.ofList (d.unread.takeWhile isPlain)
  match d.unread.dropWhile isPlain with
  | [] => .ok (.finished written)
  | _ :: behind =>
    match Escape.readMeaning behind with
    | .error e => .error e
    | .ok (c, rest) => .ok (.going ⟨written.push c, rest⟩)

/-- A step that goes on has shortened what is unread. -/
theorem length_unread_lt {d next : Decoding} (h : d.step = .ok (.going next)) :
    next.unread.length < d.unread.length := by
  have hdrop := (List.dropWhile_suffix (l := d.unread) isPlain).length_le
  unfold step at h
  split at h
  · simp at h
  · next heq =>
    rw [heq] at hdrop
    split at h
    · simp at h
    · next hread =>
      have hread := Escape.length_readMeaning_lt hread
      simp only [Except.ok.injEq, Step.going.injEq] at h
      simp only [List.length_cons] at hdrop
      simp only [← h]
      omega

/-- Goes on to the end of the body. -/
def run (d : Decoding) : Except EscapeError String :=
  match _ : d.step with
  | .error e => .error e
  | .ok (.finished text) => .ok text
  | .ok (.going next) => run next
termination_by d.unread.length
decreasing_by exact length_unread_lt (by assumption)

end Decoding

/-- The value of the body `raw` of a string literal. -/
def Body.decode (raw : String) : Except EscapeError String :=
  Decoding.run ⟨"", raw.toList⟩

/-!
## The value of a body

A body without a backslash is its own value, and a holder of the source need
not copy it. `Value` keeps the two cases apart.
-/

/-- The value of a body. -/
inductive Value where
  /-- The body itself, which holds no backslash. -/
  | verbatim (text : String)
  /-- A text made by decoding. -/
  | decoded (text : String)
  deriving DecidableEq, Repr

namespace Value

/-- The text of a value, however it came about. -/
def text : Value → String
  | verbatim s => s
  | decoded s => s

/-- Whether the value is a piece of the source as it stands. -/
def isVerbatim : Value → Bool
  | verbatim _ => true
  | decoded _ => false

end Value

namespace Body

/-- Whether a body needs decoding. -/
def hasEscape (raw : String) : Bool := raw.toList.contains '\\'

/-- The value of the body `raw`: the body itself where it has no escape. -/
def value (raw : String) : Except EscapeError Value :=
  if hasEscape raw then
    match decode raw with
    | .error e => .error e
    | .ok text => .ok (.decoded text)
  else .ok (.verbatim raw)

end Body

/-!
## By bytes and by characters

`Decoding.stepBytes` asks a search for the next backslash among the UTF-8 bytes, and
cuts the body there by byte offsets; a cut through a character or past the end gives
`none`. Any search will do that keeps to `Text.FindsFirst`. `Body.decodeChars` takes one
character at a time and searches for nothing.
-/

namespace Decoding

variable (search : UInt8 → List UInt8 → Option Nat)

/-- A step that cuts at the byte of the next backslash, and right behind it. -/
def stepBytes (d : Decoding) : Option (Except EscapeError Step) :=
  match search 0x5C (Text.bytes d.unread) with
  | none => some (.ok (.finished (d.written ++ String.ofList d.unread)))
  | some place =>
    match Text.splitBytes? d.unread place with
    | none => none
    | some (plain, _) =>
      match Text.splitBytes? d.unread (place + 1) with
      | none => none
      | some (_, behind) =>
        match Escape.readMeaning behind with
        | .error e => some (.error e)
        | .ok (c, rest) =>
          some (.ok (.going ⟨(d.written ++ String.ofList plain).push c, rest⟩))

/-- Wherever it cuts, a step that goes on has shortened what is unread. -/
theorem length_unread_lt_of_stepBytes {d next : Decoding}
    (h : d.stepBytes search = some (.ok (.going next))) :
    next.unread.length < d.unread.length := by
  unfold stepBytes at h
  split at h
  · simp at h
  · split at h
    · simp at h
    · split at h
      · simp at h
      · next hcut =>
        have hunread := congrArg List.length (Text.splitBytes?_eq_some_iff.1 hcut).1
        rw [List.length_append] at hunread
        split at h
        · simp at h
        · next hread =>
          have hread := Escape.length_readMeaning_lt hread
          simp only [Option.some.injEq, Except.ok.injEq, Step.going.injEq] at h
          simp only [← h]
          omega

/-- Goes on to the end of the body, cutting by bytes. -/
def runBytes (d : Decoding) : Option (Except EscapeError String) :=
  match _ : d.stepBytes search with
  | none => none
  | some (.error e) => some (.error e)
  | some (.ok (.finished text)) => some (.ok text)
  | some (.ok (.going next)) => runBytes next
termination_by d.unread.length
decreasing_by exact length_unread_lt_of_stepBytes search (by assumption)

end Decoding

namespace Body

/-- The value of the body `raw`, cut by bytes. -/
def decodeBytes (search : UInt8 → List UInt8 → Option Nat) (raw : String) :
    Option (Except EscapeError String) :=
  Decoding.runBytes search ⟨"", raw.toList⟩

/-- Decodes `unread` behind `written`, one character after the other. -/
def decodeChars (written unread : List Char) : Except EscapeError (List Char) :=
  match unread with
  | [] => .ok written
  | c :: behind =>
    if c = '\\' then
      match _ : Escape.readMeaning behind with
      | .error e => .error e
      | .ok (meaning, rest) => decodeChars (written ++ [meaning]) rest
    else decodeChars (written ++ [c]) behind
termination_by unread.length
decreasing_by
  · have hread := Escape.length_readMeaning_lt (by assumption)
    simp only [List.length_cons]
    omega
  · simp

end Body

end GraphqlLiteral
