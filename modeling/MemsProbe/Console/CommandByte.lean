/-
The command byte that a user typed, in hexadecimal.

The strict reading takes digits alone, with an optional `0x` before them.
The lenient one takes whatever digits it finds at the start, after a sign
and a `0x`, and makes a zero of a text without any; a minus sign takes the
value from 2^64. In both a number of more than 64 bits counts as the
largest of 64 bits, and a number above 255 is out of range.
-/
import MemsProbe.Failure
import MemsProbe.Text.Blank
import MemsProbe.Text.Numeral

namespace MemsProbe

/-- How typed text becomes a byte. -/
inductive HexPolicy where
  | strict
  | lenient
  deriving DecidableEq, Repr

namespace HexPolicy

def name : HexPolicy → String
  | strict => "strict"
  | lenient => "lenient"

/-- The policy of that very name. -/
def ofName? (s : String) : Option HexPolicy :=
  [strict, lenient].find? (·.name == s)

end HexPolicy

namespace CommandByte

/-- The largest number of 64 bits, which stands for all larger ones. -/
def largest : Nat := Numeral.limit64 - 1

def isHexDigit (c : Char) : Bool :=
  Numeral.isDigit 16 c

/-- The value of hexadecimal digits, or the largest if they say more. -/
def clampedValue (digits : List Char) : Nat :=
  match Numeral.readFrom 16 Numeral.limit64 0 digits with
  | .ok n => n
  | .error _ => largest

/-- A text without a leading `0x`. -/
def dropMark : List Char → List Char
  | '0' :: 'x' :: s => s
  | '0' :: 'X' :: s => s
  | s => s

/-- The number in a text that is nothing but digits. -/
def strictValue (text : List Char) : Except Failure Nat :=
  let trimmed := Text.trim text
  let digits := dropMark trimmed
  if digits.isEmpty || !digits.all isHexDigit then
    .error (.invalidInput (String.ofList trimmed) "not a hexadecimal number")
  else .ok (clampedValue digits)

/-- A text without a leading sign, and whether the sign was a minus. -/
def dropSign : List Char → Bool × List Char
  | '-' :: s => (true, s)
  | '+' :: s => (false, s)
  | s => (false, s)

/-- A text without a leading `0x` that a digit follows. -/
def dropMarkOfDigits (s : List Char) : List Char :=
  if (dropMark s).head?.any isHexDigit then dropMark s else s

/-- The number less than 2^64 that is equal to minus `n` up to a multiple of
2^64. -/
def negated (n : Nat) : Nat :=
  (Numeral.limit64 - n) % Numeral.limit64

/-- The number at the start of a text. A number too large is not negated. -/
def lenientValue (text : List Char) : Nat :=
  let (minus, s) := dropSign (Text.trimStart text)
  match Numeral.readFrom 16 Numeral.limit64 0 ((dropMarkOfDigits s).takeWhile isHexDigit) with
  | .ok n => if minus then negated n else n
  | .error _ => largest

/-- The byte for a number, if it is one. -/
def ofNat (n : Nat) : Except Failure UInt8 :=
  if n < 256 then .ok (UInt8.ofNat n) else .error (.outOfRange n)

/-- The command byte that a text stands for. -/
def parse (policy : HexPolicy) (text : String) : Except Failure UInt8 :=
  match policy with
  | .lenient => ofNat (lenientValue text.toList)
  | .strict =>
    match strictValue text.toList with
    | .ok n => ofNat n
    | .error e => .error e

end CommandByte
end MemsProbe
