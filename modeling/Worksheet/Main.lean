import Worksheet.Command.Run

/-!
# The program

The command line on the files of the system.
-/

namespace Worksheet

/-- Why the system refuses a file. -/
def storageError : IO.Error → StorageError
  | .alreadyExists _ code reason | .invalidArgument _ code reason
  | .permissionDenied _ code reason | .resourceExhausted _ code reason
  | .inappropriateType _ code reason | .noSuchThing _ code reason
  | .interrupted _ code reason | .noFileOrDirectory _ code reason
  | .otherError code reason | .resourceBusy code reason | .resourceVanished code reason
  | .unsupportedOperation code reason | .hardwareFault code reason
  | .unsatisfiedConstraints code reason | .illegalOperation code reason
  | .protocolError code reason | .timeExpired code reason => ⟨reason, code.toNat⟩
  | .unexpectedEof => ⟨"Unexpected end of file", 0⟩
  | .userError reason => ⟨reason, 0⟩

/-- The files of the system as a storage. -/
def systemStorage : Storage IO where
  load path := do
    match ← (IO.FS.readBinFile path).toBaseIO with
    | .ok bytes => return .ok bytes.toList
    | .error e => return .error (storageError e)
  save path bytes := do
    match ← (IO.FS.writeBinFile path bytes.toByteArray).toBaseIO with
    | .ok () => return .ok ()
    | .error e => return .error (storageError e)

end Worksheet

/-- Answer the command line. -/
def main (args : List String) : IO UInt32 := do
  let output ← Worksheet.Command.run Worksheet.systemStorage args
  (← IO.getStderr).putStr output.err
  (← IO.getStdout).write output.out.toByteArray
  return output.code.toUInt32
