import GraphqlLiteral.Report
import GraphqlLiteral.Text.Quoted

/-!
# Commands

What the program is asked to do, and what it says. A command reads at most one file
and writes lines to two streams. All of it is a function of the arguments and of what
stands under the path; `Main` does the reading and the printing.
-/

namespace GraphqlLiteral

/-!
## The output of a command

A command writes lines to two streams and ends with a status. Both are values
here, so that what a command says can be reasoned about; `Main` prints them.
-/

namespace Cli

/-- How a command ended. -/
inductive ExitStatus where
  /-- Everything decoded, or there was nothing to decode. -/
  | ok
  /-- A body has no value, or the command line is not understood. -/
  | invalid
  /-- The input could not be read. -/
  | unreadable
  deriving DecidableEq, Repr

/-- The number that the system is told. -/
def ExitStatus.code : ExitStatus → UInt8
  | .ok => 0
  | .invalid => 1
  | .unreadable => 2

/-- What a command writes, line by line, and how it ends. -/
structure Output where
  status : ExitStatus
  out : List String
  err : List String
  deriving DecidableEq, Repr

namespace Output

/-- Lines as they are written, each with a line feed behind it. -/
def unlines (lines : List String) : String :=
  String.join (lines.map fun line => line ++ "\n")

@[simp] theorem unlines_nil : unlines [] = "" := rfl

@[simp] theorem unlines_cons (line : String) (lines : List String) :
    unlines (line :: lines) = line ++ "\n" ++ unlines lines := by
  simp [unlines]

@[simp] theorem unlines_append (lines lines' : List String) :
    unlines (lines ++ lines') = unlines lines ++ unlines lines' := by
  induction lines with
  | nil => simp
  | cons line lines ih => simp [ih, String.append_assoc]

/-- Groups of lines are written one after another. -/
theorem unlines_flatMap {α : Type} (xs : List α) (f : α → List String) :
    unlines (xs.flatMap f) = String.join (xs.map fun x => unlines (f x)) := by
  induction xs with
  | nil => rfl
  | cons x xs ih => rw [List.flatMap_cons, unlines_append, ih, List.map_cons, String.join_cons]

/-- The text on the standard output. -/
def stdout (o : Output) : String := unlines o.out

/-- The text on the error output. -/
def stderr (o : Output) : String := unlines o.err

end Output

/-!
## Files

What stands under a path, and the text to be had from it. Only well-formed
UTF-8 is text.
-/

/-- What stands under a path. -/
inductive File where
  | regular (bytes : ByteArray)
  | directory
  /-- Something that may not be read. -/
  | locked
  /-- Nothing that the system gets to, for a reason of its own: the path may go on
  behind a regular file. -/
  | barred (reason : String)

/-- Why there is no text under a path. -/
inductive ReadError where
  /-- Nothing stands there. -/
  | missing
  /-- It may not be read. -/
  | denied
  /-- Its bytes are not UTF-8. -/
  | notText
  /-- The system gave a reason of its own. -/
  | other (reason : String)
  deriving DecidableEq, Repr

/-- The error as it is told to a person. -/
def ReadError.message (path : String) : ReadError → String
  | .missing => "cannot find file '" ++ path ++ "'"
  | .denied => "permission denied reading '" ++ path ++ "'"
  | .notText => "'" ++ path ++ "' contains invalid UTF-8 data"
  | .other reason => "error reading '" ++ path ++ "': " ++ reason

/-- The text of the bytes of a file. -/
def textOfBytes (bytes : ByteArray) : Except ReadError String :=
  match String.fromUTF8? bytes with
  | some text => .ok text
  | none => .error .notText

/-- The text of what stands under a path. -/
def File.read : Option File → Except ReadError String
  | none => .error .missing
  | some (.regular bytes) => textOfBytes bytes
  | some .directory => .error (.other "Is a directory (os error 21)")
  | some .locked => .error .denied
  | some (.barred reason) => .error (.other reason)

/-!
## Checking a file

The report on a file as a person reads it: a diagnostic for each bad line with
its number and its bytes, advice below it, and a last line that counts.
-/

/-- The lines about one bad line of the file at `path`. -/
def diagnostic (path : String) (bad : BadLine) : List String :=
  (path ++ ":" ++ toString bad.line ++ ": error: " ++ bad.problem.message ++
      " (bytes " ++ bad.problem.span.text ++ ")") ::
    bad.problem.suggestions.map fun advice => "  = help: " ++ advice

/-- The last line about a file with bad lines. -/
def failureSummary (path : String) (report : Report) : String :=
  path ++ ": " ++ toString report.badLines.size ++ " of " ++ toString report.linesChecked ++
    " literal(s) failed to decode"

/-- The only line about a file without bad lines. -/
def successSummary (path : String) (report : Report) : String :=
  path ++ ": " ++ toString report.linesChecked ++ " literal(s) OK"

/-- The output for a report on the file at `path`. -/
def outputOfReport (path : String) (report : Report) : Output :=
  if report.isClean then ⟨.ok, [successSummary path report], []⟩
  else ⟨.invalid, [],
    report.badLines.toList.flatMap (diagnostic path) ++ [failureSummary path report]⟩

/-- The output for the file at `path`, from what reading it gave. -/
def check (path : String) : Except ReadError String → Output
  | .ok source => outputOfReport path (Report.ofSource source)
  | .error e => ⟨.unreadable, [], ["error: " ++ e.message path]⟩

/-- How to name a file to be checked. -/
def checkUsage : List String := ["error: missing file path", "Usage: gqlc check <file>"]

/-!
## Decoding the arguments

Each argument is a body of its own. One with a value gives a line on the
standard output, one without a line on the error output; both show the argument
in quotes, so that every line can be read back.
-/

/-- An argument and what it decoded to. -/
structure DecodedArgument where
  raw : String
  result : Except EscapeError String

/-- Decodes every argument for itself. -/
def decodeArguments (raws : List String) : List DecodedArgument :=
  raws.map fun raw => ⟨raw, Body.decode raw⟩

namespace DecodedArgument

/-- The argument has a value. -/
def isOk (a : DecodedArgument) : Bool :=
  match a.result with
  | .ok _ => true
  | .error _ => false

/-- A text as it is shown to the user. -/
def shown (s : String) : String := Text.quoted Text.isHidden s

/-- The line on the standard output, for an argument with a value. -/
def outLine? (a : DecodedArgument) : Option String :=
  match a.result with
  | .ok value => some (shown a.raw ++ " => " ++ shown value)
  | .error _ => none

/-- The line on the error output, for an argument without a value. -/
def errLine? (a : DecodedArgument) : Option String :=
  match a.result with
  | .ok _ => none
  | .error e => some (shown a.raw ++ ": error: " ++ e.message)

end DecodedArgument

/-- How to give arguments to be decoded. -/
def decodeUsage : List String :=
  ["Usage: gqlc decode <raw>...", "",
    "Each argument is the content of a string literal without its quotes."]

/-- The output for the arguments `raws`. Without any there is nothing to say. -/
def decode (raws : List String) : Output :=
  let arguments := decodeArguments raws
  ⟨if arguments.all DecodedArgument.isOk then .ok else .invalid,
    arguments.filterMap DecodedArgument.outLine?,
    arguments.filterMap DecodedArgument.errLine?⟩

/-!
## The command line

`Command.ofArgs` reads a command line, and `Command.run` gives the output of a
command from the text that reading a path gives. Only `check` reads a file, and
no command looks at more arguments than it needs.
-/

/-- What the program is asked to do. -/
inductive Command where
  /-- Say how the program is used. -/
  | help
  | version
  /-- Decode the arguments. -/
  | decode (raws : List String)
  /-- A decoding without arguments. -/
  | decodeNothing
  /-- Check every line of the file at `path`. -/
  | check (path : String)
  /-- A check without a file. -/
  | checkNothing
  /-- Any other word. -/
  | unknown (name : String)
  deriving DecidableEq, Repr

/-- How the program is used. -/
def usage : List String :=
  ["GQLC (GraphQL string-literal decoder)",
    "",
    "Usage: gqlc <command> [options]",
    "",
    "Commands:",
    "  decode <raw>...   Decode literal bodies given as arguments",
    "  check <file>      Decode every line of a file as a literal body",
    "  help              Show this help message",
    "  version           Show version information",
    "",
    "Environment:",
    "  RUST_LOG          Enable tracing output (e.g. RUST_LOG=gql_lexer=debug)"]

namespace Command

/-- The command of a command line, the program's name left out. -/
def ofArgs : List String → Command
  | [] => help
  | "decode" :: [] => decodeNothing
  | "decode" :: raws => decode raws
  | "check" :: path :: _ => check path
  | "check" :: [] => checkNothing
  | "help" :: _ => help
  | "--help" :: _ => help
  | "-h" :: _ => help
  | "version" :: _ => version
  | "--version" :: _ => version
  | "-V" :: _ => version
  | name :: _ => unknown name

/-- The path that a command reads. -/
def path? : Command → Option String
  | check path => some path
  | _ => none

/-- The output of a command, where `read` gives the text under a path. -/
def run (read : String → Except ReadError String) : Command → Output
  | help => ⟨.ok, usage, []⟩
  | version => ⟨.ok, ["gqlc 0.1.0"], []⟩
  | decode raws => Cli.decode raws
  | decodeNothing => ⟨.invalid, [], decodeUsage⟩
  | check path => Cli.check path (read path)
  | checkNothing => ⟨.invalid, [], checkUsage⟩
  | unknown name => ⟨.invalid, usage, ["Unknown command: " ++ name, ""]⟩

end Command

end Cli

end GraphqlLiteral
