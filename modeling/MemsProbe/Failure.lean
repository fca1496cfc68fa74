/-
What can go wrong, from a byte that did not leave the port to a settings
file with a bad value.

A failure is a cause with the facts it needs; `message` alone decides how
it reads. Causes fall into six categories, and the category decides both
the advice given and the exit code: a mistake in what was typed or
configured exits with 1, everything else with 2.
-/
import MemsProbe.Text.Hex

namespace MemsProbe

inductive Failure where
  /-- A file or stream refused an operation. -/
  | io (message : String)
  /-- The serial port refused an operation. -/
  | serial (message : String)
  /-- A value could not be written as JSON. -/
  | serialization (message : String)
  /-- The port took another number of bytes than it was offered. -/
  | shortWrite (expected written : Nat)
  /-- The line stayed silent while `context` was awaited. -/
  | timeout (context : String)
  /-- The first byte back was not the command sent. -/
  | unexpectedEcho (sent received : UInt8)
  /-- A step of the wake-up sequence failed. -/
  | linkInit (message : String)
  /-- The ECU did not carry out a command. -/
  | commandFailed (command : String)
  /-- A text is not of the form asked for. -/
  | invalidInput (input reason : String)
  /-- A number that is no byte was typed as a command. -/
  | outOfRange (value : Nat)
  /-- There is no room for `what`. -/
  | exhausted (what : String) (capacity : Nat)
  /-- A buffer holds all it can. -/
  | bufferFull (capacity : Nat)
  /-- A reply was longer than the buffer; the rest was read and dropped. -/
  | overflow (capacity discarded : Nat)
  /-- The user asked to stop. -/
  | cancelled
  /-- The settings file is not readable as one. -/
  | config (message : String)
  /-- A setting is outside its bounds. -/
  | invalidSetting (field value reason : String)
  deriving DecidableEq, Repr, Inhabited

namespace Failure

def message : Failure → String
  | .io m => "IO error: " ++ m
  | .serial m => "Serial port error: " ++ m
  | .serialization m => "Serialization error: " ++ m
  | .shortWrite expected written =>
    s!"Short write: {written} of {expected} bytes written"
  | .timeout context => "Timed out waiting for " ++ context
  | .unexpectedEcho sent received =>
    "Unexpected echo: sent 0x" ++ Hex.byte sent ++ ", received 0x" ++ Hex.byte received
  | .linkInit m => "Link initialization failed: " ++ m
  | .commandFailed command => "ECU command failed: " ++ command
  | .invalidInput input reason => "Invalid input '" ++ input ++ "': " ++ reason
  | .outOfRange value => "Value 0x" ++ Hex.numeral value ++ " is outside 0x00..=0xFF"
  | .exhausted what capacity => s!"Could not allocate {what} ({capacity} bytes)"
  | .bufferFull capacity => s!"Response buffer full ({capacity} bytes)"
  | .overflow capacity discarded =>
    s!"Response longer than {capacity} bytes, {discarded} extra byte(s) discarded"
  | .cancelled => "Operation cancelled"
  | .config m => "Configuration error: " ++ m
  | .invalidSetting field value reason =>
    "Invalid configuration value for '" ++ field ++ "' = '" ++ value ++ "': " ++ reason

/-- What the system or a library had to say, where a failure only passes it
on. -/
def cause? : Failure → Option String
  | .io m | .serial m | .serialization m => some m
  | _ => none

/-- The message, and after it the cause in its own words. -/
def account (f : Failure) : String :=
  match f.cause? with
  | some cause => f.message ++ ": " ++ cause
  | none => f.message

inductive Category where
  | io
  | protocol
  | validation
  | exhaustion
  | configuration
  | cancelled
  deriving DecidableEq, Repr

def category : Failure → Category
  | .io _ | .serial _ | .shortWrite _ _ | .timeout _ => .io
  | .unexpectedEcho _ _ | .linkInit _ | .commandFailed _ => .protocol
  | .invalidInput _ _ | .outOfRange _ => .validation
  | .exhausted _ _ | .bufferFull _ | .overflow _ _ => .exhaustion
  | .serialization _ | .config _ | .invalidSetting _ _ _ => .configuration
  | .cancelled => .cancelled

/-- What the user can do about a failure of this category. -/
def Category.suggestion : Category → String
  | .io => "Check the serial device path, cabling and that no other program holds the port"
  | .protocol => "Check that the ignition is on and the ECU is a MEMS 1.6 unit, then retry"
  | .validation => "Enter a single hex byte between 00 and FF"
  | .exhaustion => "Lower console.response_capacity and retry"
  | .configuration => "Fix the command line or the settings file"
  | .cancelled => "The operation was interrupted before completing"

/-- Mistakes in what was typed or configured exit with 1. -/
def Category.exitCode : Category → Nat
  | .configuration | .validation => 1
  | _ => 2

def suggestion (f : Failure) : String :=
  f.category.suggestion

def exitCode (f : Failure) : Nat :=
  f.category.exitCode

/-- Whether a failure is the port's own word that the ECU did not answer as
it should: silence, or a wrong echo. -/
def isNoAnswer : Failure → Bool
  | .timeout _ | .unexpectedEcho _ _ => true
  | _ => false

end Failure
end MemsProbe
