import SpirvLegality.CommandLine.Run

/-!
# The program

Reads the file that the command line names and prints what comes of the command.
-/

namespace SpirvLegality.CommandLine

/-- The number that the system gives to a directory where a file is expected. -/
def isDirectoryCode : UInt32 := 21

/-- The number that the runtime gives to a name that is too long: that of the system, with its sign
turned. -/
def nameTooLongCode : UInt32 := 0 - 36

/-- The file error that a system error stands for. -/
def FileError.ofSystem : IO.Error → FileError
  | .noFileOrDirectory _ _ _ => .notFound
  | .permissionDenied _ _ _ => .denied
  | .inappropriateType _ code _ => if code = isDirectoryCode then .isDirectory else .notDirectory
  | .invalidArgument name code details =>
    if code = nameTooLongCode then .nameTooLong
    else .other (toString (IO.Error.invalidArgument name code details))
  | e => .other (toString e)

/-- The bytes of a file, or the reason why they cannot be read. -/
def readBytes (path : String) : IO (Except FileError ByteArray) := do
  try
    return .ok (← IO.FS.readBinFile path)
  catch e =>
    return .error (.ofSystem e)

/-- The file that a command reads. -/
def Command.source? : Command → Option String
  | .resolve file _ _ _ => some file
  | .env _ _ => none
  | .parse file _ => some file

end SpirvLegality.CommandLine

open SpirvLegality.CommandLine

def main (arguments : List String) : IO UInt32 := do
  let invocation := Invocation.parse? arguments
  let content ←
    match invocation.bind fun i => i.command.source? with
    | some path => readBytes path
    | none => pure (.error .notFound)
  let outcome := Invocation.run (fun _ => content) invocation
  (← IO.getStdout).putStr outcome.output
  (← IO.getStderr).putStr outcome.errors
  return outcome.code
