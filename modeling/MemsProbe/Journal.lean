/-
The notes that the program keeps of its own doings, with their level and
wording. They are for the user who asks for them; no operation depends on
what has been noted.
-/
import MemsProbe.Actuator
import MemsProbe.Failure

namespace MemsProbe

inductive Note where
  /-- A frame's first byte is not its length. -/
  | frameLength (frame reported : UInt8) (expected : Nat)
  /-- The ECU named itself. -/
  | ecuId (id : List UInt8)
  | actuatorFailed (actuator : Actuator) (cause : Failure)
  | disconnecting
  | closeFinished (attempts : Nat)
  | openCancelled (attempts : Nat)
  | openReached (readback : UInt8) (attempts : Nat)
  | actuationCompleted (actuator : Actuator) (attempts : Nat) (readback : UInt8)
  | sent (command : UInt8)
  | writeFailed (command : UInt8) (cause : Failure)
  | replyExceeded (capacity discarded : Nat)
  | replyCutShort (command : UInt8) (cause : Failure)
  | consoleClosed (commands bytes : Nat)
  | readLoopCancelled (reads : Nat)
  | readFailed (number : Nat) (cause : Failure)
  | readsSucceeded (succeeded reads : Nat)
  deriving DecidableEq, Repr

namespace Note

inductive Level where
  | debug
  | info
  | warn
  deriving DecidableEq, Repr

def level : Note → Level
  | frameLength _ _ _ | openCancelled _ | writeFailed _ _ | replyExceeded _ _
  | replyCutShort _ _ | readFailed _ _ => .warn
  | actuationCompleted _ _ _ | consoleClosed _ _ | readLoopCancelled _ => .info
  | ecuId _ | actuatorFailed _ _ | disconnecting | closeFinished _ | openReached _ _
  | sent _ | readsSucceeded _ _ => .debug

/-- Bytes in brackets, parted by commas. -/
def byteList (bytes : List UInt8) : String :=
  "[" ++ ", ".intercalate (bytes.map Hex.byte) ++ "]"

def text : Note → String
  | frameLength frame reported expected =>
    "frame " ++ Hex.byte frame ++ " reports length " ++ reported.toNat.repr ++
      s!" (expected {expected})"
  | ecuId id => "ECU ID " ++ byteList id
  | actuatorFailed actuator cause => actuator.name ++ " failed: " ++ cause.message
  | disconnecting => "disconnecting from ECU"
  | closeFinished attempts =>
    Actuator.closeIac.name ++ s!" finished after {attempts} attempts"
  | openCancelled attempts =>
    Actuator.openIac.name ++ s!" cancelled after {attempts} attempts"
  | openReached readback attempts =>
    Actuator.openIac.name ++ " reached 0x" ++ Hex.byte readback ++
      s!" after {attempts} attempts"
  | actuationCompleted actuator attempts readback =>
    "✅ " ++ actuator.name ++ s!" completed after {attempts} command(s), last readback Some(" ++
      readback.toNat.repr ++ ")"
  | sent command => "sent 0x" ++ Hex.byte command
  | writeFailed command cause =>
    "write of 0x" ++ Hex.byte command ++ " failed: " ++ cause.message
  | replyExceeded capacity discarded =>
    s!"reply exceeded {capacity} bytes, discarded {discarded} more"
  | replyCutShort command cause =>
    "reply to 0x" ++ Hex.byte command ++ " cut short: " ++ cause.message
  | consoleClosed commands bytes =>
    s!"console closed: {commands} commands sent, {bytes} bytes received"
  | readLoopCancelled reads => s!"read loop cancelled after {reads} reads"
  | readFailed number cause => s!"read {number} failed: " ++ cause.message
  | readsSucceeded succeeded reads => s!"{succeeded} of {reads} reads succeeded"

end Note
end MemsProbe
