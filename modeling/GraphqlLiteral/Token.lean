import GraphqlLiteral.Body
import GraphqlLiteral.Problem

/-!
# String tokens

A body has a place in a source, and a token is a body with its quotes around it. What
is wrong with it goes to a log, and the reader goes on.
-/

namespace GraphqlLiteral

/-!
## Bodies in a source

A body has a place in a document, and what is wrong with it goes to the log of
that document. The body still gets a value then, an empty one, so that a reader
can go on.
-/

/-- A body and the offset of its first byte in a source. -/
structure LocatedBody where
  content : String
  base : Offset
  deriving DecidableEq, Repr

namespace LocatedBody

/-- The problem of a body that has no value: it covers the whole body. -/
def undecodable (b : LocatedBody) : Problem :=
  .undecodable b.base.toUInt64 (LongOffset.clamp b.content.utf8ByteSize)

/-- The value of a body and the log after it. A body without a value is empty
and adds one problem. -/
def value (b : LocatedBody) (log : ProblemLog) : Value × ProblemLog :=
  match Body.value b.content with
  | .ok value => (value, log)
  | .error _ => (.decoded "", log.push b.undecodable)

/-- The values of several bodies in turn, each with the log after it. -/
def values (log : ProblemLog) : List LocatedBody → List (Value × ProblemLog)
  | [] => []
  | b :: bs => b.value log :: values (b.value log).2 bs

/-- The log after several bodies. -/
def logAfter (log : ProblemLog) (bs : List LocatedBody) : ProblemLog :=
  bs.foldl (fun log b => (b.value log).2) log

end LocatedBody

/-!
## Tokens in a source

A token is a literal with its quotes, given by its bytes in a source. A
`TokenReader` holds the source and the problems met so far; the tokens may come
in any order, and more than once. A range that is no slice of the source is no
token: reading it gives nothing and leaves the reader as it was.
-/

/-- The bytes of a token. -/
structure TokenRange where
  offset : Offset
  length : UInt32
  deriving DecidableEq, Repr

namespace TokenRange

/-- The text of a token. The end of the range is not rounded to the limit of
`Offset`. -/
def text? (t : TokenRange) (source : String) : Option String :=
  Text.slice? source t.offset.toNat t.length.toNat

/-- The span of a whole token, up to the limit of `Offset`. -/
def span (t : TokenRange) : Span := ⟨t.offset, t.offset.advance t.length⟩

/-- Takes the quotes off the text of a token. The two must be two characters. -/
def unquote? (text : String) : Option String :=
  match text.toList with
  | '"' :: rest => if rest.getLast? = some '"' then some (String.ofList rest.dropLast) else none
  | _ => none

end TokenRange

/-- A source whose tokens are being read. -/
structure TokenReader where
  source : String
  problems : ProblemLog

namespace TokenReader

/-- A reader that has met no problem. -/
def ofSource (source : String) : TokenReader := ⟨source, #[]⟩

/-- Reads the value of a token. A token without both of its quotes is empty and
adds one problem. -/
def read? (r : TokenReader) (t : TokenRange) : Option (Value × TokenReader) :=
  match t.text? r.source with
  | none => none
  | some text =>
    match TokenRange.unquote? text with
    | none => some (.verbatim "", { r with problems := r.problems.push (.unterminated t.span) })
    | some content =>
      let (value, problems) := (LocatedBody.mk content (t.offset.advance 1)).value r.problems
      some (value, { r with problems })

/-- Reads several tokens in turn, and gives the value of each with the reader
after it. -/
def readAll (r : TokenReader) : List TokenRange → List (Option Value × TokenReader)
  | [] => []
  | t :: ts =>
    match r.read? t with
    | none => (none, r) :: readAll r ts
    | some (value, next) => (some value, next) :: readAll next ts

/-- The reader after several tokens. -/
def after (r : TokenReader) (ts : List TokenRange) : TokenReader :=
  ts.foldl (fun r t => ((r.read? t).map Prod.snd).getD r) r

end TokenReader

end GraphqlLiteral
