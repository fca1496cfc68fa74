/-
The settings of a run.

They come in three layers: what the command line says, else what the
settings file says, else the default. A file is checked as a whole before
anything of it is used, so the command line cannot make up for a bad value
in it; then what came of the layers is checked.
-/
import MemsProbe.Settings.File

namespace MemsProbe

/-- What the command line says about the settings. -/
structure Overrides where
  baudRate : Option Nat := none
  readTimeout : Option Nat := none
  hexPolicy : Option HexPolicy := none
  inactivityTimeout : Option Nat := none
  outputFormat : Option OutputFormat := none
  readCount : Option ReadCount := none
  deriving DecidableEq, Repr

structure Settings where
  device : String
  baudRate : Nat := 9600
  /-- Milliseconds that a read waits. -/
  readTimeout : Nat := 1000
  run : RunOptions := {}
  deriving DecidableEq, Repr

namespace Settings

/-- A number of milliseconds of silence to wait for; zero is none at all. -/
def silence (milliseconds : Nat) : Option Nat :=
  if milliseconds = 0 then none else some milliseconds

/-- Settings with what a file says in place of their own. -/
def withFile (f : SettingsFile) (s : Settings) : Settings where
  device := s.device
  baudRate := f.baudRate.getD s.baudRate
  readTimeout := f.readTimeout.getD s.readTimeout
  run :=
    { s.run with
      outputFormat := f.outputFormat.getD s.run.outputFormat
      console :=
        { policy := f.hexPolicy.getD s.run.console.policy
          inactivityTimeout :=
            (f.inactivityTimeout.map silence).getD s.run.console.inactivityTimeout
          responseCapacity := f.responseCapacity.getD s.run.console.responseCapacity } }

/-- Settings with what the command line says in place of their own. -/
def withOverrides (o : Overrides) (s : Settings) : Settings where
  device := s.device
  baudRate := o.baudRate.getD s.baudRate
  readTimeout := o.readTimeout.getD s.readTimeout
  run :=
    { s.run with
      readCount := o.readCount.getD s.run.readCount
      outputFormat := o.outputFormat.getD s.run.outputFormat
      console :=
        { s.run.console with
          policy := o.hexPolicy.getD s.run.console.policy
          inactivityTimeout :=
            (o.inactivityTimeout.map silence).getD s.run.console.inactivityTimeout } }

/-- Checks settings, one after the other. -/
def validate (s : Settings) : Except Failure Unit := do
  Bounds.path "device" s.device
  Bounds.baudRate "baud_rate" s.baudRate
  Bounds.readTimeout "read_timeout_ms" s.readTimeout
  Bounds.responseCapacity "response_capacity" s.run.console.responseCapacity
  Bounds.ifPresent (Bounds.inactivityTimeout "inactivity_timeout_ms")
    s.run.console.inactivityTimeout

/-- The layers of the settings of a device, the file's only if there is one. -/
def layered (device : String) (file : Option SettingsFile) (o : Overrides) : Settings :=
  (file.elim { device } (withFile · { device })).withOverrides o

/-- The settings of a device, if all that is said of them is within bounds. -/
def resolve (device : String) (file : Option SettingsFile) (o : Overrides) :
    Except Failure Settings := do
  Bounds.ifPresent SettingsFile.validate file
  let s := layered device file o
  s.validate
  return s

end Settings
end MemsProbe
