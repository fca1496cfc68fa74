/-
A line that answers by script.

It holds a queue of things to be read: pieces of reply and faults. A piece
is given out over as many reads as it takes, and two pieces are never
joined in one read; an empty piece is one silent read. Every command byte
that is taken may add a reply to the queue. The request to stop can be set
to arrive with a given read or write.
-/
import MemsProbe.Link

namespace MemsProbe

/-- Something waiting to be read. -/
inductive Arrival where
  | piece (bytes : List UInt8)
  | fault (f : Failure)
  deriving DecidableEq, Repr

/-- What a write comes to: bytes counted as taken, or a fault. -/
inductive WriteAnswer where
  | all
  | count (taken : Nat)
  | fault (f : Failure)
  deriving DecidableEq, Repr

structure ScriptedLine where
  /-- What is there to be read, the next arrival first. -/
  queue : List Arrival := []
  /-- The replies still to come for each command byte; the last one is
  given again and again. -/
  replies : UInt8 → List (List Arrival) := fun _ => []
  /-- How the next writes go; later ones take all bytes. -/
  writeAnswers : List WriteAnswer := []
  /-- The most that one read gives out. -/
  pieceLimit : Option Nat := none
  /-- The byte that an otherwise silent line repeats for ever. -/
  endless : Option UInt8 := none
  /-- How setting the timeout fails. -/
  timeoutFault : Option Failure := none
  /-- The number of the read that the request to stop arrives with. -/
  stopAtRead : Option Nat := none
  /-- The number of the write that the request to stop arrives with. -/
  stopAtWrite : Option Nat := none
  reads : Nat := 0
  writes : Nat := 0
  stopped : Bool := false

namespace ScriptedLine

/-- Whether a call of the given number is late enough to bring the request
to stop that is due with another. -/
def isDue (due : Option Nat) (number : Nat) : Bool :=
  due.any (· ≤ number)

/-- Queues the next reply to a byte that was taken. -/
def answer (s : ScriptedLine) (c : UInt8) : ScriptedLine :=
  match s.replies c with
  | [] => s
  | [last] => { s with queue := s.queue ++ last }
  | next :: later =>
    { s with
      queue := s.queue ++ next
      replies := fun d => if d = c then later else s.replies d }

/-- Takes bytes, the first one first. -/
def accept (bytes : List UInt8) (s : ScriptedLine) : ScriptedLine :=
  bytes.foldl answer s

def countWrite (s : ScriptedLine) : ScriptedLine :=
  { s with
    writes := s.writes + 1
    stopped := s.stopped || isDue s.stopAtWrite (s.writes + 1) }

def countRead (s : ScriptedLine) : ScriptedLine :=
  { s with
    reads := s.reads + 1
    stopped := s.stopped || isDue s.stopAtRead (s.reads + 1) }

/-- A write of which the given answer comes. -/
def writeWith (offered : List UInt8) (s : ScriptedLine) :
    WriteAnswer → Except Failure Nat × ScriptedLine
  | .all => (.ok offered.length, s.accept offered)
  | .count taken => (.ok taken, s.accept (offered.take taken))
  | .fault f => (.error f, s)

def write (offered : List UInt8) (s : ScriptedLine) : Except Failure Nat × ScriptedLine :=
  match s.writeAnswers with
  | [] => writeWith offered s.countWrite .all
  | a :: later => writeWith offered { s.countWrite with writeAnswers := later } a

/-- How many bytes a read with the given room may give out. -/
def most (s : ScriptedLine) (room : Nat) : Nat :=
  min room (s.pieceLimit.getD room)

/-- What is left in the queue of a piece that some bytes were read of. -/
def putBack (bytes : List UInt8) (rest : List Arrival) : List Arrival :=
  if bytes.isEmpty then rest else .piece bytes :: rest

def read (room : Nat) (s : ScriptedLine) :
    Except Failure { got : List UInt8 // got.length ≤ room } × ScriptedLine :=
  have enough : s.most room ≤ room := Nat.min_le_left ..
  match s.queue with
  | .piece bytes :: rest =>
    (.ok ⟨bytes.take (s.most room), Nat.le_trans (List.length_take_le ..) enough⟩,
      { s.countRead with queue := putBack (bytes.drop (s.most room)) rest })
  | .fault f :: rest => (.error f, { s.countRead with queue := rest })
  | [] =>
    match s.endless with
    | some b =>
      (.ok ⟨List.replicate (s.most room) b, by simpa using enough⟩, s.countRead)
    | none => (.ok ⟨[], Nat.zero_le _⟩, s.countRead)

def setTimeout (_milliseconds : Nat) (s : ScriptedLine) : Except Failure Unit × ScriptedLine :=
  match s.timeoutFault with
  | some f => (.error f, s)
  | none => (.ok (), s)

/-- The same line once the user has asked to stop. -/
def stop (s : ScriptedLine) : ScriptedLine :=
  { s with stopped := true }

end ScriptedLine

instance : Line ScriptedLine where
  write := ScriptedLine.write
  read := ScriptedLine.read
  setTimeout := ScriptedLine.setTimeout
  cancelled := ScriptedLine.stopped

end MemsProbe
