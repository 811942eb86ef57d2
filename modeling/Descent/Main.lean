import Descent.CommandLine

/-! The program: files, standard input and the log level come from the system. -/

namespace Descent

namespace CommandLine

/-- The cause that a system error names. Its code may be negative. -/
def ReadError.ofSystem : IO.Error → ReadError
  | .noFileOrDirectory _ _ _ => .missing
  | .permissionDenied _ _ _ => .denied
  | .inappropriateType _ code _ => if code = 21 ∨ code = -21 then .directory else .noDirectory
  | .invalidArgument path code details =>
      if code = 36 ∨ code = -36 then .nameTooLong
      else .other (toString (IO.Error.invalidArgument path code details)).toList
  | e => .other (toString e).toList

partial def readStream (stream : IO.FS.Stream) (read : ByteArray) : IO ByteArray := do
  let chunk ← stream.read 65536
  if chunk.isEmpty then return read else readStream stream (read ++ chunk)

def system : World IO where
  contents path := do
    try return decoded (← IO.FS.readBinFile (String.ofList path))
    catch e => return .error (.ofSystem e)
  standardInput := do
    try return decoded (← readStream (← IO.getStdin) ByteArray.empty)
    catch e => return .error (.ofSystem e)

/-- The environment variable that names the least severe level of the records to print. -/
def levelVariable : String := "RUST_LOG"

end CommandLine

end Descent

def main (args : List String) : IO UInt32 := do
  let level ← IO.getEnv Descent.CommandLine.levelVariable
  let report ← Descent.CommandLine.run Descent.CommandLine.system (args.map String.toList)
  let (code, output, errors) :=
    report.streams (Descent.CommandLine.threshold (level.map String.toList))
  IO.eprint (String.ofList errors)
  IO.print (String.ofList output)
  return code.toUInt32
