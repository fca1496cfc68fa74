/-
How many times a read is repeated.

The count is typed as `inf` or as a number whose first characters name its
base: `0x` for sixteen, another leading zero for eight, ten otherwise. A
zero on its own is a zero.
-/
import MemsProbe.Failure
import MemsProbe.Text.Blank
import MemsProbe.Text.Numeral

namespace MemsProbe

inductive ReadCount where
  | times (n : Nat)
  | forever
  deriving DecidableEq, Repr

namespace ReadCount

/-- The base of a number and the characters after the mark that names it. -/
def baseAndBody : List Char → Nat × List Char
  | '0' :: 'x' :: body => (16, body)
  | '0' :: 'X' :: body => (16, body)
  | '0' :: c :: body => (8, c :: body)
  | body => (10, body)

/-- Reads a count from a text without blanks at its ends. -/
def parseTrimmed (t : List Char) : Except Failure ReadCount :=
  if t = ['i', 'n', 'f'] then .ok .forever
  else
    let (base, body) := baseAndBody t
    match Numeral.read base Numeral.limit64 body with
    | .ok n => .ok (.times n)
    | .error fault =>
      .error (.invalidInput (String.ofList t)
        ("read-loop-count must be a number or 'inf' (" ++ fault.message ++ ")"))

def parse (s : String) : Except Failure ReadCount :=
  parseTrimmed (Text.trim s.toList)

def text : ReadCount → String
  | times n => n.repr
  | forever => "inf"

end ReadCount
end MemsProbe
