import TapeMachine.CommandLine.Session

/-!
# The command line program

Reads the arguments, runs a session on the files of the system, and prints its report.
-/

set_option autoImplicit false

namespace TapeMachine

/-- Why the system refused access to a file. -/
private def accessFailure (error : IO.Error) : AccessFailure :=
  match error with
  | .noFileOrDirectory .. => .missing
  | .inappropriateType _ code _ => if code = 20 then .notADirectory else .isADirectory
  | .invalidArgument _ 36 _ => .nameTooLong
  | other => .other (toString other)

instance : Files IO where
  read path := do
    try
      return .ok { bytes := ← IO.FS.readBinFile path }
    catch error => return .error (accessFailure error)
  write path contents := do
    try
      IO.FS.writeBinFile path contents.bytes
      return .ok ()
    catch error => return .error (accessFailure error)

/-- A seed from the system's source of randomness. -/
private def drawSeed : IO UInt64 := do
  let bytes ← IO.getRandomBytes 8
  return bytes.foldl (fun seed byte ↦ seed * 256 + byte.toUInt64) 0

end TapeMachine

open TapeMachine in
def main (arguments : List String) : IO UInt32 := do
  match CommandLine.Options.parse arguments with
  | .error error =>
    IO.eprintln error.message
    return 2
  | .ok options =>
    let report ← CommandLine.run options (← drawSeed)
    IO.print report.output
    IO.eprint report.errors
    return report.exitCode.toUInt32
