/-
The unquoted values of TOML: booleans, numbers, dates and times.

Each is a row of characters, and the row alone decides what it is. Digits
of a number may be parted by single underscores. A decimal number has no
leading zero; a number in another base has no sign. Seconds may be left out
of a time, and the date and the time of a moment may be parted by one blank
instead of a `T`.

Some rows are taken for whole numbers on their looks and have no value: a
mark of a base that no digit follows, and a decimal number in which other
characters come after an underscore.
-/
import MemsProbe.Text.Numeral
import MemsProbe.Toml.Blank
import MemsProbe.Toml.Value

namespace MemsProbe.Toml

def isDecimal (c : Char) : Bool :=
  Numeral.isDigit 10 c

/-! ## Numbers -/

/-- The digits of a row in which single underscores may stand between two of
them. -/
def plainDigits (isDigit : Char → Bool) : List Char → Option (List Char)
  | [] => none
  | [c] => if isDigit c then some [c] else none
  | c :: '_' :: d :: cs => if isDigit c then (plainDigits isDigit (d :: cs)).map (c :: ·) else none
  | c :: d :: cs => if isDigit c then (plainDigits isDigit (d :: cs)).map (c :: ·) else none

/-- The value of a row of digits in a base. A row without any is let through
and has no value. -/
def naturalIn (base : Nat) (cs : List Char) : Option (Option Nat) :=
  if cs.isEmpty then some none
  else (plainDigits (Numeral.isDigit base) cs).map fun ds => some (Numeral.value base ds)

/-- Decimal digits without a leading zero. -/
def decimalDigits (cs : List Char) : Option (List Char) :=
  (plainDigits isDecimal cs).filter fun ds => ds.length == 1 || ds.head? != some '0'

/-- Whether each underscore in a row has a hexadecimal digit on both sides. -/
def isParted : List Char → Bool
  | c :: '_' :: cs =>
    Numeral.isDigit 16 c && cs.head?.any (Numeral.isDigit 16) && isParted cs
  | _ :: cs => isParted cs
  | [] => true

/-- Whether a row that is no decimal number looks like one: digits, the
first no zero, and an underscore, with nothing after them that would make it
a float or two values. -/
def looksDecimal (cs : List Char) : Bool :=
  let (digits, rest) := cs.span isDecimal
  !digits.isEmpty && digits.head? != some '0' && rest.head? == some '_' && isParted cs &&
    !rest.any fun c => c == ' ' || c == '.' || c == 'e' || c == 'E'

/-- The value of a row that is or looks like a decimal number. -/
def decimalNatural (cs : List Char) : Option (Option Nat) :=
  match decimalDigits cs with
  | some ds => some (some (Numeral.value 10 ds))
  | none => if looksDecimal cs then some none else none

/-- A whole number, as far as it has a value. -/
def integer? : List Char → Option (Option Int)
  | '0' :: 'x' :: cs => (naturalIn 16 cs).map (·.map Int.ofNat)
  | '0' :: 'o' :: cs => (naturalIn 8 cs).map (·.map Int.ofNat)
  | '0' :: 'b' :: cs => (naturalIn 2 cs).map (·.map Int.ofNat)
  | '+' :: cs => (decimalNatural cs).map (·.map Int.ofNat)
  | '-' :: cs => (decimalNatural cs).map (·.map fun n => -Int.ofNat n)
  | cs => (decimalNatural cs).map (·.map Int.ofNat)

/-- A row without its sign. -/
def dropSign : List Char → List Char
  | '+' :: cs => cs
  | '-' :: cs => cs
  | cs => cs

/-- Whether a row has a minus sign. -/
def isMinus (cs : List Char) : Bool :=
  cs.head? == some '-'

/-- The exponent of a float, after its letter. -/
def exponent? (cs : List Char) : Option Int := do
  let n ← (plainDigits isDecimal (dropSign cs)).map (Numeral.value 10)
  return if isMinus cs then -Int.ofNat n else Int.ofNat n

/-- The least number that binary64 rounds to infinity. -/
def overflowBound : Nat := Nat.pow 2 1024 - Nat.pow 2 970

/-- Whether `digits` times ten to the `exponent` is within the range of
binary64. Far beyond its 309 decimal digits that is settled by their count
alone, so that no power of ten is formed which the text could make huge. -/
def isFinite (digits : List Char) (exponent : Int) : Bool :=
  let m := Numeral.value 10 digits
  let size : Int := (digits.dropWhile (· == '0')).length + exponent
  if m == 0 || size < 309 then true
  else if 309 < size then false
  else m * Nat.pow 10 exponent.toNat < overflowBound * Nat.pow 10 (-exponent).toNat

/-- The digits of a fraction and the row after them: none without a point. -/
def fraction? : List Char → Option (List Char × List Char)
  | '.' :: cs => do
    let (written, rest) := cs.span fun c => c != 'e' && c != 'E'
    let ds ← plainDigits isDecimal written
    return (ds, rest)
  | cs => some ([], cs)

/-- A float, and whether it is finite in binary64. -/
def float? (cs : List Char) : Option Bool :=
  let body := dropSign cs
  if body == ['i', 'n', 'f'] || body == ['n', 'a', 'n'] then some true
  else do
    let (whole, rest) := body.span fun c => c != '.' && c != 'e' && c != 'E'
    guard !rest.isEmpty
    let whole ← decimalDigits whole
    let (fraction, rest) ← fraction? rest
    let e ←
      match rest with
      | [] => some 0
      | _ :: cs => exponent? cs
    return isFinite (whole ++ fraction) (e - fraction.length)

/-! ## Dates and times -/

/-- A number of exactly so many digits. -/
def digits (count : Nat) : Reader Nat := fun cs =>
  let written := cs.take count
  if written.length == count && written.all isDecimal then
    some (Numeral.value 10 written, cs.drop count)
  else none

/-- The text after a given character. -/
def mark (c : Char) : List Char → Option (List Char)
  | d :: cs => if d == c then some cs else none
  | [] => none

def isLeapYear (year : Nat) : Bool :=
  year % 4 == 0 && (year % 100 != 0 || year % 400 == 0)

def daysIn (year month : Nat) : Nat :=
  if month == 2 then if isLeapYear year then 29 else 28
  else if month == 4 || month == 6 || month == 9 || month == 11 then 30
  else 31

/-- The text after a date. -/
def dropDate (cs : List Char) : Option (List Char) := do
  let (year, cs) ← digits 4 cs
  let (month, cs) ← digits 2 (← mark '-' cs)
  let (day, cs) ← digits 2 (← mark '-' cs)
  guard (1 ≤ month && month ≤ 12 && 1 ≤ day && day ≤ daysIn year month)
  return cs

/-- The text after hours and minutes. -/
def dropMinutes (cs : List Char) : Option (List Char) := do
  let (hour, cs) ← digits 2 cs
  let (minute, cs) ← digits 2 (← mark ':' cs)
  guard (hour ≤ 23 && minute ≤ 59)
  return cs

/-- The text after the fraction of a second, if there is one. -/
def dropSecondFraction : List Char → Option (List Char)
  | '.' :: cs => if (cs.takeWhile isDecimal).isEmpty then none else some (cs.dropWhile isDecimal)
  | cs => some cs

/-- The text after a time of day. The sixtieth second is a leap second. -/
def dropTime (cs : List Char) : Option (List Char) := do
  let cs ← dropMinutes cs
  match cs with
  | ':' :: cs => do
    let (second, cs) ← digits 2 cs
    guard (second ≤ 60)
    dropSecondFraction cs
  | cs => some cs

/-- The text after the offset of a time, if there is one. -/
def dropOffset : List Char → Option (List Char)
  | 'Z' :: cs => some cs
  | 'z' :: cs => some cs
  | '+' :: cs => dropMinutes cs
  | '-' :: cs => dropMinutes cs
  | cs => some cs

/-- The text after a date with or without a time. -/
def dropDateTime (cs : List Char) : Option (List Char) := do
  match ← dropDate cs with
  | [] => some []
  | c :: cs =>
    guard (c == 'T' || c == 't' || c == ' ')
    dropOffset (← dropTime cs)

/-- Whether a row is a date, a time, or both. -/
def isMoment (cs : List Char) : Bool :=
  dropDateTime cs == some [] || dropTime cs == some []

/-! ## The row of characters -/

/-- Whether a character ends the row of an unquoted value. -/
def endsRow (c : Char) : Bool :=
  c == '=' || c == ',' || c == '[' || c == ']' || c == '\x7b' || c == '\x7d' || c == '#' ||
    c == '\n' || c == '\r'

def isQuote (c : Char) : Bool :=
  c == '\'' || c == '"'

/-- The characters up to the end of the row. A quote is one of them inside a
word; after a blank it opens a string, which belongs to no row. -/
def spanRow (afterBlank : Bool) : List Char → List Char × List Char
  | [] => ([], [])
  | c :: cs =>
    if endsRow c || (afterBlank && isQuote c) then ([], c :: cs)
    else
      let (row, rest) := spanRow (isSpace c) cs
      (c :: row, rest)

/-- The row of an unquoted value, without the blanks at its end. -/
def scalarRow (cs : List Char) : List Char × List Char :=
  let (row, rest) := spanRow false cs
  ((row.reverse.dropWhile isSpace).reverse, rest)

/-- The value that a row stands for. -/
def scalarOf (row : List Char) : Option Value :=
  if row == "true".toList then some (.boolean true)
  else if row == "false".toList then some (.boolean false)
  else if isMoment row then some .moment
  else
    match integer? row with
    | some i => some (.integer i)
    | none => (float? row).map .float

/-- An unquoted value, if one comes next. -/
def scalar : Reader Value := fun cs =>
  let (row, rest) := scalarRow cs
  (scalarOf row).map (·, rest)

end MemsProbe.Toml
