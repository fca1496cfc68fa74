/-
Where the program writes to.

A sink takes text and can be told to pass it on; both may fail, with a
message of the sink's own. The bounded sink keeps a fixed number of bytes
of what it is offered and refuses any text that goes beyond them, which is
how a closed pipe looks from here.
-/
import MemsProbe.Failure

namespace MemsProbe

/-- A sink in state `ω`. -/
class Sink (ω : Type) where
  write (text : String) (s : ω) : Except String Unit × ω
  flush (s : ω) : Except String Unit × ω

namespace Sink

variable {ω : Type} [Sink ω]

/-- An answer whose message becomes a failure. -/
def asFailure : Except String Unit × ω → Except Failure Unit × ω
  | (.ok (), s) => (.ok (), s)
  | (.error m, s) => (.error (.io m), s)

/-- Writes a text. An empty one does not reach the sink. -/
def print (text : String) (s : ω) : Except Failure Unit × ω :=
  if text.isEmpty then (.ok (), s) else asFailure (write text s)

/-- Writes a text and passes it on at once. -/
def emit (text : String) (s : ω) : Except Failure Unit × ω :=
  match print text s with
  | (.error e, s) => (.error e, s)
  | (.ok (), s) => asFailure (flush s)

end Sink

/-- A sink that keeps the first `limit` bytes. -/
structure BoundedSink where
  /-- The bytes it has room for; any number if there is none given. -/
  limit : Option Nat := none
  flushFails : Bool := false
  /-- All that has been offered. -/
  offered : String := ""

namespace BoundedSink

/-- Whether so many bytes are too many. -/
def exceeds (bytes : Nat) (s : BoundedSink) : Bool :=
  s.limit.any (· < bytes)

def write (text : String) (s : BoundedSink) : Except String Unit × BoundedSink :=
  let s := { s with offered := s.offered ++ text }
  if s.exceeds s.offered.utf8ByteSize then (.error "output closed", s) else (.ok (), s)

def flush (s : BoundedSink) : Except String Unit × BoundedSink :=
  if s.flushFails then (.error "flush failed", s) else (.ok (), s)

/-- The bytes that were kept. -/
def kept (s : BoundedSink) : ByteArray :=
  s.offered.toUTF8.extract 0 (s.limit.getD s.offered.utf8ByteSize)

end BoundedSink

instance : Sink BoundedSink where
  write := BoundedSink.write
  flush := BoundedSink.flush

end MemsProbe
