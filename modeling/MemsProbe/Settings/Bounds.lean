/-
Checks of single settings. Each names the setting, its value and the bounds
in the failure it gives.
-/
import MemsProbe.Failure

namespace MemsProbe.Bounds

/-- A number that is neither less than the least nor greater than the
greatest. Bounds the wrong way round admit nothing. -/
def within (field : String) (value least greatest : Int) : Except Failure Unit :=
  if value < least || greatest < value then
    .error (.invalidSetting field value.repr
      ("Value must be between " ++ least.repr ++ " and " ++ greatest.repr))
  else .ok ()

/-- A number that is not less than the least. -/
def atLeast (field : String) (value least : Nat) : Except Failure Unit :=
  if value < least then
    .error (.invalidSetting field value.repr ("Value must be at least " ++ least.repr))
  else .ok ()

/-- A path that the system can be asked for. -/
def path (field value : String) : Except Failure Unit :=
  if value.isEmpty then .error (.invalidSetting field value "Path cannot be empty")
  else if value.toList.contains '\x00' then
    .error (.invalidSetting field value "Path contains null bytes")
  else .ok ()

/-! ## The bounds of each setting -/

def baudRate (field : String) (value : Nat) : Except Failure Unit :=
  within field value 300 115200

def readTimeout (field : String) (value : Nat) : Except Failure Unit :=
  within field value 1 60000

def responseCapacity (field : String) (value : Nat) : Except Failure Unit :=
  atLeast field value 1

def inactivityTimeout (field : String) (value : Nat) : Except Failure Unit :=
  within field value 0 60000

/-- A check of a value that need not be there. -/
def ifPresent {α : Type} (check : α → Except Failure Unit) : Option α → Except Failure Unit
  | some a => check a
  | none => .ok ()

end MemsProbe.Bounds
