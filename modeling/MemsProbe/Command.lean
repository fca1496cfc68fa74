/-
The commands a user can ask for, and their names. A name is accepted in
either case.
-/
import MemsProbe.Failure

namespace MemsProbe

inductive Command where
  | read
  | readRaw
  | readIac
  | ptc
  | fuelPump
  | iacClose
  | iacOpen
  | ac
  | coil
  | injectors
  | interactive
  deriving DecidableEq, Repr

namespace Command

/-- Every command, in the order they are listed to the user. -/
def all : List Command :=
  [read, readRaw, readIac, ptc, fuelPump, iacClose, iacOpen, ac, coil, injectors, interactive]

def name : Command → String
  | read => "read"
  | readRaw => "read-raw"
  | readIac => "read-iac"
  | ptc => "ptc"
  | fuelPump => "fuelpump"
  | iacClose => "iac-close"
  | iacOpen => "iac-open"
  | ac => "ac"
  | coil => "coil"
  | injectors => "injectors"
  | interactive => "interactive"

/-- The command of a name, letters of the Latin alphabet compared without
their case. -/
def ofName? (s : String) : Option Command :=
  all.find? fun c => c.name == s.map Char.toLower

def parse (s : String) : Except Failure Command :=
  match ofName? s with
  | some c => .ok c
  | none => .error (.invalidInput s "unknown command")

end Command
end MemsProbe
