/-
Two decimal texts of a binary number: with a set number of decimals, and
with the fewest decimals that read back to it.

Both round the exact value, which a finite decimal always is: with as many
decimals as there are binary places nothing is lost, so the search for the
shortest text ends there at the latest.
-/
import MemsProbe.Binary32

namespace MemsProbe.Binary32

/-- A number of units of 1 / 10^decimals, written with all its decimals. -/
def decimalText (units decimals : Nat) : String :=
  let fraction := (units % Nat.pow 10 decimals).repr
  let zeros := String.ofList (List.replicate (decimals - fraction.length) '0')
  (units / Nat.pow 10 decimals).repr ++ "." ++ zeros ++ fraction

/-- The nearest number of units of 1 / 10^decimals. -/
def unitsAt (decimals : Nat) (x : Binary32) : Nat :=
  roundDiv (x.significand * Nat.pow 10 decimals) (Nat.pow 2 x.places)

/-- The value with the given number of decimals. -/
def fixed (decimals : Nat) (x : Binary32) : String :=
  decimalText (x.unitsAt decimals) decimals

/-- Whether the nearest decimal with so many decimals reads back. -/
def readsBackAt (decimals : Nat) (x : Binary32) : Bool :=
  nearest (x.unitsAt decimals) (Nat.pow 10 decimals) == x

/-- The least number of decimals from `decimals` on that reads back, among
the next `more`. -/
def fewestFrom (x : Binary32) : (more decimals : Nat) → Nat
  | 0, decimals => decimals
  | more + 1, decimals =>
    if x.readsBackAt decimals then decimals else fewestFrom x more (decimals + 1)

/-- The fewest decimals that read back, and one decimal zero where none is
needed. -/
def shortest (x : Binary32) : String :=
  match x.fewestFrom x.places 0 with
  | 0 => (x.unitsAt 0).repr ++ ".0"
  | decimals => x.fixed decimals

end MemsProbe.Binary32
