/-
How a loop that nothing need ever stop comes out when it is given a number
of rounds: with a value, with a failure, or with its rounds used up. The
last is no answer of the program. It says that the loop was still going,
and the state that comes with it is where it had got to.
-/
import MemsProbe.Failure

namespace MemsProbe

inductive Outcome (α : Type) where
  | done (value : α)
  | failed (failure : Failure)
  | unfinished
  deriving DecidableEq, Repr

namespace Outcome

variable {α : Type}

/-- The outcome of something that always ends. -/
def ofExcept : Except Failure α → Outcome α
  | .ok a => .done a
  | .error e => .failed e

/-- The failure, if it ended in one. -/
def failure? : Outcome α → Option Failure
  | .failed e => some e
  | _ => none

end Outcome
end MemsProbe
