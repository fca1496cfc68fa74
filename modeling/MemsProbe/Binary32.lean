/-
Numbers with twenty-four significant binary digits, which is the precision
of binary32, and the nearest of them to a quotient.

The gauges of the ECU stay far below 2^24, so a value is kept as a whole
number of units of 1 / 2^places, and neither the sign nor the largest
exponents of the format are needed. A quotient halfway between two such
numbers goes to the one with the even significand.
-/
namespace MemsProbe

/-- The quotient rounded to the nearest whole number, a half to the even
neighbour. -/
def roundDiv (num den : Nat) : Nat :=
  let q := num / den
  let r := num % den
  if 2 * r < den then q
  else if den < 2 * r then q + 1
  else q + q % 2

/-- The number `significand / 2 ^ places`. -/
structure Binary32 where
  significand : Nat
  places : Nat
  deriving DecidableEq, Repr

namespace Binary32

/-- How many significant binary digits there are. -/
def precision : Nat := 24

/-- The binary places that give a positive quotient all its significant
digits: with so many, its whole part has `precision` digits. -/
def placesFor (num den : Nat) : Nat :=
  let p := precision - 1 + den.log2 - num.log2
  if num * Nat.pow 2 p < Nat.pow 2 (precision - 1) * den then p + 1 else p

/-- The nearest number to a quotient below 2^24. A significand that rounding
carries to one digit more is halved again. -/
def nearest (num den : Nat) : Binary32 :=
  if num = 0 then ⟨0, 0⟩
  else
    let p := placesFor num den
    let m := roundDiv (num * Nat.pow 2 p) den
    if m = Nat.pow 2 precision then ⟨Nat.pow 2 (precision - 1), p - 1⟩ else ⟨m, p⟩

def ofNat (n : Nat) : Binary32 :=
  nearest n 1

/-- The product with a whole number, rounded. -/
def times (n : Nat) (x : Binary32) : Binary32 :=
  nearest (n * x.significand) (Nat.pow 2 x.places)

end Binary32
end MemsProbe
