import PageBuilder.CommandLine.Run

/-!
# The program

Arguments, files and streams are those of the operating system. What is done with them is decided by
`CommandLine.run`.
-/

namespace PageBuilder

open Files

/-- An error of the operating system. -/
def Files.FileError.ofSystem : IO.Error → FileError
  | .noFileOrDirectory .. => notFound
  | .otherError code reason => other reason code.toNat
  | .alreadyExists _ code reason => other reason code.toNat
  | .inappropriateType _ code reason =>
    if code = 20 then notADirectory else if code = 21 then isADirectory else other reason code.toNat
  | .permissionDenied _ code reason =>
    if code = 13 then permissionDenied else other reason code.toNat
  | .resourceExhausted _ code reason => other reason code.toNat
  | .invalidArgument _ code reason =>
    if code = 36 then nameTooLong else if code = 40 then tooManyLinks else other reason code.toNat
  | .resourceBusy code reason => other reason code.toNat
  | .hardwareFault code reason => other reason code.toNat
  | .unsupportedOperation code reason => other reason code.toNat
  | e => other e.toString 0

instance : FileAccess IO where
  readText path := do
    try
      let bytes ← IO.FS.readBinFile path
      match String.fromUTF8? bytes with
      | some s => return .ok s
      | none => return .error .notUtf8
    catch e => return .error (.ofSystem e)
  writeText path text := do
    try
      IO.FS.writeBinFile path text.toUTF8
      return .ok ()
    catch e => return .error (.ofSystem e)

end PageBuilder

/-- Runs the program. The log goes to standard error, from its `INFO` events up. -/
def main (args : List String) : IO UInt32 := do
  let outcome : PageBuilder.CommandLine.Outcome ← PageBuilder.CommandLine.run args
  for event in outcome.log do
    if event.level.isShown then
      IO.eprintln event.line
  IO.print outcome.output
  IO.eprint outcome.errorOutput
  return UInt32.ofNat outcome.status
