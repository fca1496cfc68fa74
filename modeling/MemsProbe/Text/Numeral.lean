/-
Numbers written as digits in some base, read from the left with a bound.

`value` is what the digits say, however long they are. `read` works with a
running value that must stay below `limit`, and refuses the text at the
first character that is no digit or takes the value to the limit: of two
such faults the one further left is reported.
-/
namespace MemsProbe.Numeral

/-- The value of a digit in bases up to sixteen, in either case. -/
def digitValue (c : Char) : Option Nat :=
  if '0' ≤ c ∧ c ≤ '9' then some (c.toNat - 48)
  else if 'a' ≤ c ∧ c ≤ 'f' then some (c.toNat - 87)
  else if 'A' ≤ c ∧ c ≤ 'F' then some (c.toNat - 55)
  else none

/-- The value of a digit of the given base. -/
def digit? (base : Nat) (c : Char) : Option Nat :=
  (digitValue c).filter (· < base)

def isDigit (base : Nat) (c : Char) : Bool :=
  (digit? base c).isSome

/-- Why a text is not a number within the bound. -/
inductive Fault where
  | empty
  | notADigit
  | tooLarge
  deriving DecidableEq, Repr

def Fault.message : Fault → String
  | .empty => "cannot parse integer from empty string"
  | .notADigit => "invalid digit found in string"
  | .tooLarge => "number too large to fit in target type"

/-- The value of digits that follow digits of value `acc`; characters that
are not digits of the base count as zero. -/
def valueFrom (base acc : Nat) : List Char → Nat
  | [] => acc
  | c :: cs => valueFrom base (acc * base + (digit? base c).getD 0) cs

/-- The number that a row of digits writes, without any bound. -/
def value (base : Nat) (digits : List Char) : Nat :=
  valueFrom base 0 digits

/-- Reads on from a value below the limit. -/
def readFrom (base limit acc : Nat) : List Char → Except Fault Nat
  | [] => .ok acc
  | c :: cs =>
    match digit? base c with
    | none => .error .notADigit
    | some d =>
      if acc * base + d < limit then readFrom base limit (acc * base + d) cs
      else .error .tooLarge

/-- Reads a row of digits that nothing comes before. -/
def readDigits (base limit : Nat) : List Char → Except Fault Nat
  | [] => .error .empty
  | cs => readFrom base limit 0 cs

/-- Reads a number with at most one plus sign before its digits. A sign on
its own is a wrong digit rather than an empty text. -/
def read (base limit : Nat) : List Char → Except Fault Nat
  | ['+'] => .error .notADigit
  | '+' :: cs => readDigits base limit cs
  | cs => readDigits base limit cs

/-- One more than the largest number of 64 bits. -/
def limit64 : Nat := 0x1_0000_0000_0000_0000

/-- One more than the largest number of 32 bits. -/
def limit32 : Nat := 0x1_0000_0000

end MemsProbe.Numeral
