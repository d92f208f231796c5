import QueryFilter.Command.Guid
import QueryFilter.Command.Report

/-! # The program

Reads arguments, environment and input, and writes the report.
-/

namespace QueryFilter.Command

def readFailure : IO.Error → ReadFailure
  | .noFileOrDirectory .. => .missing
  | .inappropriateType _ 20 _ => .notDirectory
  | .inappropriateType .. => .directory
  | .invalidArgument _ 36 _ => .nameTooLong
  | .permissionDenied .. => .denied
  | _ => .notText

def readInput (file : Option String) : IO (Except ReadFailure String) := do
  try
    let text ← match file with
      | some path => IO.FS.readFile path
      | none => do (← IO.getStdin).readToEnd
    return .ok text
  catch failure => return .error (readFailure failure)

def randomSeed : IO Nat := do
  let bytes ← IO.getRandomBytes 16
  return bytes.foldl (fun seed byte => 256 * seed + byte.toNat) 0

def usage : String := "Usage: jaql [-v] [-f pretty|json] translate|test|relations [FILE] ..."

end QueryFilter.Command

open QueryFilter.Command in
def main (arguments : List String) : IO UInt32 := do
  match Invocation.ofArguments (← IO.getEnv "JAQL_FORMAT") arguments with
  | .error .help =>
    IO.println usage
    return 0
  | .error .version =>
    IO.println "jaql"
    return 0
  | .error _ =>
    IO.eprintln usage
    return 2
  | .ok invocation =>
    let input ← readInput invocation.command.file?
    let seed ← randomSeed
    let result := report invocation (freshGuid seed) input
    IO.print result.stdout
    IO.eprint result.stderr
    return if result.succeeded then 0 else 1
