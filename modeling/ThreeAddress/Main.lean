import ThreeAddress.CommandLine.Run

/-!
# The program

Runs the command line on the files of the machine. All that is decided is decided in `CommandLine.run`; here
files are read and written and the outputs are printed.
-/

namespace ThreeAddress.CommandLine

/-- Some failures carry their number negated. -/
def errorNumber (code : UInt32) : UInt32 := if code < 0x80000000 then code else 0 - code

/-- The cause of a failure in the words that messages use, where there are such words. -/
def causeOf : IO.Error → String
  | .noFileOrDirectory .. => PathFault.noEntry.message
  | .inappropriateType _ code _ =>
    if errorNumber code = 20 then PathFault.notDirectory.message else PathFault.isDirectory.message
  | e@(.invalidArgument _ code _) =>
    if errorNumber code = 36 then PathFault.nameTooLong.message else toString e
  | .permissionDenied _ code _ =>
    "Permission denied (os error " ++ Text.Decimal.ofNat (errorNumber code).toNat ++ ")"
  | e => toString e

def ioAccess : FileAccess IO where
  read path := do
    try
      return .ok (← IO.FS.readBinFile path)
    catch e => return .error (causeOf e)
  write path bytes := do
    try
      IO.FS.writeBinFile path bytes
      return .ok ()
    catch e => return .error (causeOf e)

end ThreeAddress.CommandLine

def main (args : List String) : IO UInt32 := do
  let exit ← ThreeAddress.CommandLine.run ThreeAddress.CommandLine.ioAccess args
  IO.print exit.stdout
  IO.eprint exit.stderr
  return exit.code.toUInt32
