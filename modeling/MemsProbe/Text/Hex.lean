/-
Hexadecimal text of bytes and numbers, in capitals.

A byte is always two digits. `line` writes each byte followed by a blank;
`dump` does the same in rows of sixteen and closes with a line end, so the
blank after a byte is what separates it from the next one in both. Each
text is built as a list of characters first, since that is the form a
reader of it goes over.
-/
namespace MemsProbe.Hex

/-- The capital digit for a number below sixteen. -/
def digit (n : Nat) : Char :=
  if n < 10 then Char.ofNat (48 + n) else Char.ofNat (55 + n)

/-- The two digits of a byte, the high one first. -/
def byteChars (b : UInt8) : List Char :=
  [digit (b.toNat / 16), digit (b.toNat % 16)]

def byte (b : UInt8) : String :=
  String.ofList (byteChars b)

/-- The digits of a number without leading zeros; zero is one digit. -/
def numeralChars (n : Nat) : List Char :=
  if n < 16 then [digit n] else numeralChars (n / 16) ++ [digit (n % 16)]
termination_by n
decreasing_by omega

def numeral (n : Nat) : String :=
  String.ofList (numeralChars n)

/-- A byte and the blank that ends it. -/
def cell (b : UInt8) : List Char :=
  byteChars b ++ [' ']

def lineChars (bytes : List UInt8) : List Char :=
  bytes.flatMap cell

/-- All bytes on one line. -/
def line (bytes : List UInt8) : String :=
  String.ofList (lineChars bytes)

/-- How many bytes stand on a full row of a dump. -/
def rowLength : Nat := 16

/-- The bytes of a dump when `room` more still fit on the current row, which
a line end follows as soon as it is full. -/
def dumpFrom (room : Nat) : List UInt8 → List Char
  | [] => ['\n']
  | b :: bytes =>
    if room ≤ 1 then cell b ++ '\n' :: dumpFrom rowLength bytes
    else cell b ++ dumpFrom (room - 1) bytes

/-- Rows of sixteen bytes. A full last row is followed by an empty one. -/
def dump (bytes : List UInt8) : String :=
  String.ofList (dumpFrom rowLength bytes)

end MemsProbe.Hex
