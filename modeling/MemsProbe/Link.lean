/-
The serial line to the ECU, and a record of all that is done over it.

`Line` is what a line can do: take bytes, give bytes, and wait as long as
it is told. The same class says whether the user has asked to stop, since
that too is a fact from outside that may change between any two calls. A
`Link` is a line together with every call made over it, in order, and the
notes taken meanwhile; each operation below makes exactly one call and
records it.
-/
import MemsProbe.Journal

namespace MemsProbe

/-- A serial line in state `σ`. -/
class Line (σ : Type) where
  /-- Offers bytes; the answer is how many were taken, by the line's own
  count, which need not be right. -/
  write (offered : List UInt8) (s : σ) : Except Failure Nat × σ
  /-- Waits for bytes, at most as many as there is room for. No bytes mean
  that the line stayed silent. -/
  read (room : Nat) (s : σ) : Except Failure { got : List UInt8 // got.length ≤ room } × σ
  /-- Sets how long a read waits. -/
  setTimeout (milliseconds : Nat) (s : σ) : Except Failure Unit × σ
  /-- Whether the user has asked to stop. -/
  cancelled (s : σ) : Bool
  /-- What becomes of the line while the program waits for its user to type;
  the user may ask to stop instead. -/
  idle (s : σ) : σ := s

/-- A call made over a link, with what came of it. -/
inductive Call where
  | write (offered : List UInt8) (answer : Except Failure Nat)
  | read (room : Nat) (answer : Except Failure (List UInt8))
  | timeout (milliseconds : Nat) (answer : Except Failure Unit)
  | pause (milliseconds : Nat)

structure Link (σ : Type) where
  line : σ
  /-- All calls so far, the first one first. -/
  calls : Array Call := #[]
  /-- All notes so far, the first one first. -/
  notes : Array Note := #[]

namespace Link

variable {σ : Type} [Line σ]

def cancelled (l : Link σ) : Bool :=
  Line.cancelled l.line

/-- Leaves the line alone until the user has typed. -/
def idle (l : Link σ) : Link σ :=
  { l with line := Line.idle l.line }

def note (n : Note) (l : Link σ) : Link σ :=
  { l with notes := l.notes.push n }

/-- Waits between two commands. -/
def pause (milliseconds : Nat) (l : Link σ) : Link σ :=
  { l with calls := l.calls.push (.pause milliseconds) }

def write (offered : List UInt8) (l : Link σ) : Except Failure Nat × Link σ :=
  match Line.write offered l.line with
  | (answer, line) => (answer, { l with line, calls := l.calls.push (.write offered answer) })

def read (room : Nat) (l : Link σ) :
    Except Failure { got : List UInt8 // got.length ≤ room } × Link σ :=
  match Line.read room l.line with
  | (answer, line) =>
    (answer, { l with line, calls := l.calls.push (.read room (answer.map Subtype.val)) })

def setTimeout (milliseconds : Nat) (l : Link σ) : Except Failure Unit × Link σ :=
  match Line.setTimeout milliseconds l.line with
  | (answer, line) =>
    (answer, { l with line, calls := l.calls.push (.timeout milliseconds answer) })

/-- Offers bytes once and fails unless exactly all of them were taken. -/
def writeAll (offered : List UInt8) (l : Link σ) : Except Failure Unit × Link σ :=
  match l.write offered with
  | (.error e, l) => (.error e, l)
  | (.ok taken, l) =>
    if taken = offered.length then (.ok (), l)
    else (.error (.shortWrite offered.length taken), l)

end Link
end MemsProbe
