import GraphqlLiteral.Cli.Command

/-!
# The program

Reads the file that a command asks for, prints its output and ends with its
status. All decisions are in `Cli.Command`.
-/

namespace GraphqlLiteral

/-- A failure as the system words it, with its number. Some numbers arrive
negated. -/
def systemReason (code : UInt32) (details : String) : String :=
  let number := min code (0 - code)
  details.capitalize ++ " (os error " ++ toString number.toNat ++ ")"

/-- Why the system gave no bytes. -/
def readErrorOf : IO.Error → Cli.ReadError
  | .noFileOrDirectory _ _ _ => .missing
  | .permissionDenied _ _ _ => .denied
  | .inappropriateType _ code details => .other (systemReason code details)
  | .invalidArgument _ code details => .other (systemReason code details)
  | .resourceExhausted _ code details => .other (systemReason code details)
  | .noSuchThing _ code details => .other (systemReason code details)
  | .hardwareFault code details => .other (systemReason code details)
  | .otherError code details => .other (systemReason code details)
  | e => .other (toString e)

/-- The text of the file at `path`. -/
def readPath (path : String) : IO (Except Cli.ReadError String) := do
  try
    return Cli.textOfBytes (← IO.FS.readBinFile path)
  catch e =>
    return .error (readErrorOf e)

end GraphqlLiteral

open GraphqlLiteral in
def main (args : List String) : IO UInt32 := do
  let command := Cli.Command.ofArgs args
  let text ← match command.path? with
    | some path => readPath path
    | none => pure (.error .missing)
  let output := command.run fun _ => text
  (← IO.getStdout).putStr output.stdout
  (← IO.getStderr).putStr output.stderr
  return output.status.code.toUInt32
