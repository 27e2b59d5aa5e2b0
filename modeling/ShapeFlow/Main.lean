import ShapeFlow.Command

/-!
# The program

Reads the graph file that the command line names, and prints what the command line asks for.
-/

namespace ShapeFlow

/-- The reason that belongs to the number of a system error. Opening a file gives the number
negated, reading from it as it is. -/
def systemReason? (code : UInt32) : Option String :=
  match min code.toNat (0 - code).toNat with
  | 2 => some "No such file or directory (os error 2)"
  | 13 => some "Permission denied (os error 13)"
  | 20 => some "Not a directory (os error 20)"
  | 21 => some "Is a directory (os error 21)"
  | 36 => some "File name too long (os error 36)"
  | 40 => some "Too many levels of symbolic links (os error 40)"
  | _ => none

/-- The reason why a file cannot be read. -/
def readFailure (e : IO.Error) : String :=
  let reason := match e with
    | .noFileOrDirectory _ code _ => systemReason? code
    | .permissionDenied _ code _ => systemReason? code
    | .inappropriateType _ code _ => systemReason? code
    | .invalidArgument _ code _ => systemReason? code
    | _ => none
  reason.getD (toString e)

/-- The content of a file, or the reason why it cannot be read. -/
def readContent (path : String) : IO (Except String String) := do
  try
    match String.fromUTF8? (← IO.FS.readBinFile path) with
    | some text => return .ok text
    | none => return .error "stream did not contain valid UTF-8"
  catch e =>
    return .error (readFailure e)

/-- The output of a list of arguments. -/
def respond (arguments : List String) : IO Command.Output := do
  match Command.plan arguments with
  | .stop output => return output
  | .check invocation => return Command.check invocation (← readContent invocation.path)

end ShapeFlow

/-- Runs the program on its arguments. -/
def main (arguments : List String) : IO UInt32 := do
  let output ← ShapeFlow.respond arguments
  IO.print output.stdout
  IO.eprint output.stderr
  return UInt32.ofNat output.exit
