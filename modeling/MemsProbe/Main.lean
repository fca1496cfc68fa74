/-
The command line.

No serial line can be set up from here, so no device ever opens: each run
ends as `Program.start` says, at the latest when the device is tried.
-/
import MemsProbe.Program

namespace MemsProbe.Terminal

/-- The system's word for an error, and its number if that is known. -/
def reason : IO.Error → String × Option UInt32
  | .noFileOrDirectory _ code details => (details, some code)
  | .permissionDenied _ code details => (details, some code)
  | .inappropriateType _ code details => (details, some code)
  | .invalidArgument _ code details => (details, some code)
  | e => (toString e, none)

def fileFailure (e : IO.Error) : Failure :=
  match reason e with
  | (text, some code) => .io (text ++ " (os error " ++ code.toNat.repr ++ ")")
  | (text, none) => .io text

def fileContents (path : String) : IO (Except Failure (List UInt8)) := do
  try
    let bytes ← (← IO.FS.Handle.mk path .read).readBinToEnd
    return .ok bytes.toList
  catch e => return .error (fileFailure e)

def environment (names : List String) : IO Placeholder.Values :=
  names.filterMapM fun name => do
    return (← IO.getEnv name).map fun value => (name, value)

/-- Tries a device, which fails even if the device is there. -/
def openDevice (path : String) (_ _ : Nat) : IO (Except Failure Empty) := do
  try
    let _ ← IO.FS.Handle.mk path .readWrite
    return .error (.serial "Serial lines cannot be set up here")
  catch e => return .error (.serial (reason e).1)

def system : System Empty IO :=
  { environment, fileContents, openDevice }

def finish (e : Ending) : IO UInt32 := do
  (← IO.getStdout).putStr e.output
  (← IO.getStderr).putStr e.complaint
  return e.exitCode.toUInt32

end MemsProbe.Terminal

def main (args : List String) : IO UInt32 := do
  match ← MemsProbe.Program.start MemsProbe.Terminal.system (← IO.appPath).toString args with
  | .error ending => MemsProbe.Terminal.finish ending
  | .ok session => nomatch session.device
