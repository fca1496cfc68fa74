/-
The conversation with the ECU.

Every exchange is one command byte out, the same byte back as an echo, and
a reply of a length that the command fixes. What is read beyond the echo is
never looked at before all of it is there, so a frame that misreports its
length is noted and used all the same. Once disconnected, a client makes no
further call.
-/
import MemsProbe.Link
import MemsProbe.Reading

namespace MemsProbe

/-- A conversation over a link. -/
structure Client (σ : Type) where
  link : Link σ
  connected : Bool := true

namespace Wire

/-- The three commands that wake the ECU; the last one is answered with its
identity. -/
def wakeFirst : UInt8 := 0xCA

def wakeSecond : UInt8 := 0x75

def identify : UInt8 := 0xD0

def requestFrame80 : UInt8 := 0x80

def requestFrame7D : UInt8 := 0x7D

def requestIacPosition : UInt8 := 0xFB

/-- A command byte as messages show it. -/
def text (command : UInt8) : String :=
  "0x" ++ Hex.byte command

end Wire

/-- Silence after some of the bytes awaited. -/
def Failure.silence (command : UInt8) (arrived awaited : Nat) : Failure :=
  .timeout ("reply to " ++ Wire.text command ++ s!" ({arrived} of {awaited} bytes)")

namespace Link

variable {σ : Type} [Line σ]

/-- Reads until all bytes awaited are there, going on from those that have
arrived. The first silence or fault ends it. -/
def readOn (command : UInt8) (awaited : Nat) (arrived : List UInt8)
    (fits : arrived.length ≤ awaited) (l : Link σ) :
    Except Failure { got : List UInt8 // got.length = awaited } × Link σ :=
  if full : arrived.length = awaited then (.ok ⟨arrived, full⟩, l)
  else
    match l.read (awaited - arrived.length) with
    | (.error e, l) => (.error e, l)
    | (.ok ⟨[], _⟩, l) => (.error (.silence command arrived.length awaited), l)
    | (.ok ⟨b :: more, room⟩, l) =>
      readOn command awaited (arrived ++ b :: more)
        (by simp only [List.length_append]; omega) l
termination_by awaited - arrived.length
decreasing_by simp only [List.length_append, List.length_cons] at *; omega

/-- Reads as many bytes as are awaited of the reply to a command. -/
def readExactly (command : UInt8) (awaited : Nat) (l : Link σ) :
    Except Failure (Vector UInt8 awaited) × Link σ :=
  match l.readOn command awaited [] (Nat.zero_le _) with
  | (.error e, l) => (.error e, l)
  | (.ok ⟨bytes, h⟩, l) => (.ok ⟨bytes.toArray, by simpa using h⟩, l)

/-- Reads the echo of a command. -/
def readEcho (command : UInt8) (l : Link σ) : Except Failure Unit × Link σ :=
  match l.readExactly command 1 with
  | (.error e, l) => (.error e, l)
  | (.ok echo, l) =>
    if echo[0] = command then (.ok (), l)
    else (.error (.unexpectedEcho command echo[0]), l)

/-- Sends a command and reads its echo and its reply. -/
def exchange (command : UInt8) (replyLength : Nat) (l : Link σ) :
    Except Failure (Vector UInt8 replyLength) × Link σ :=
  match l.writeAll [command] with
  | (.error e, l) => (.error e, l)
  | (.ok (), l) =>
    match l.readEcho command with
    | (.error e, l) => (.error e, l)
    | (.ok (), l) => l.readExactly command replyLength

end Link

namespace Client

variable {σ : Type} [Line σ]

def note (n : Note) (c : Client σ) : Client σ :=
  { c with link := c.link.note n }

def pause (milliseconds : Nat) (c : Client σ) : Client σ :=
  { c with link := c.link.pause milliseconds }

def cancelled (c : Client σ) : Bool :=
  c.link.cancelled

/-- An exchange, unless the client is disconnected. -/
def exchange (command : UInt8) (replyLength : Nat) (c : Client σ) :
    Except Failure (Vector UInt8 replyLength) × Client σ :=
  if c.connected then
    match c.link.exchange command replyLength with
    | (answer, link) => (answer, { c with link })
  else
    (.error (.commandFailed (Wire.text command ++ " on a disconnected link")), c)

/-- A step of the wake-up sequence, whose failure names the step. -/
def wakeStep (command : UInt8) (replyLength : Nat) (c : Client σ) :
    Except Failure (Vector UInt8 replyLength) × Client σ :=
  match c.exchange command replyLength with
  | (.error e, c) => (.error (.linkInit (Hex.byte command ++ ": " ++ e.message)), c)
  | (.ok reply, c) => (.ok reply, c)

/-- Bytes in the identity of an ECU. -/
def identityLength : Nat := 4

/-- Wakes the ECU and asks for its identity. -/
def initLink (c : Client σ) : Except Failure (Vector UInt8 identityLength) × Client σ :=
  match c.wakeStep Wire.wakeFirst 0 with
  | (.error e, c) => (.error e, c)
  | (.ok _, c) =>
    match c.wakeStep Wire.wakeSecond 0 with
    | (.error e, c) => (.error e, c)
    | (.ok _, c) =>
      match c.wakeStep Wire.identify identityLength with
      | (.error e, c) => (.error e, c)
      | (.ok id, c) => (.ok id, c.note (.ecuId id.toList))

/-- Notes a frame whose first byte is not its length. -/
def checkLength (request : UInt8) {n : Nat} (frame : Vector UInt8 n) (c : Client σ) : Client σ :=
  match frame.toList with
  | reported :: _ =>
    if reported.toNat = n then c else c.note (.frameLength request reported n)
  | [] => c

def readFrame (request : UInt8) (length : Nat) (c : Client σ) :
    Except Failure (Vector UInt8 length) × Client σ :=
  match c.exchange request length with
  | (.error e, c) => (.error e, c)
  | (.ok frame, c) => (.ok frame, c.checkLength request frame)

/-- Reads frame 80. -/
def readFrame80 (c : Client σ) : Except Failure Frame80 × Client σ :=
  c.readFrame Wire.requestFrame80 Frame80.length

/-- Reads frame 7D. -/
def readFrame7D (c : Client σ) : Except Failure Frame7D × Client σ :=
  c.readFrame Wire.requestFrame7D Frame7D.length

/-- Reads the live values. -/
def readData (c : Client σ) : Except Failure Reading × Client σ :=
  match c.readFrame80 with
  | (.error e, c) => (.error e, c)
  | (.ok frame, c) => (.ok frame.reading, c)

/-- Reads frame 80 and, if that went well, frame 7D. -/
def readRaw (c : Client σ) : Except Failure (Frame80 × Frame7D) × Client σ :=
  match c.readFrame80 with
  | (.error e, c) => (.error e, c)
  | (.ok frame80, c) =>
    match c.readFrame7D with
    | (.error e, c) => (.error e, c)
    | (.ok frame7D, c) => (.ok (frame80, frame7D), c)

/-- Reads where the idle air control valve stands. -/
def readIacPosition (c : Client σ) : Except Failure UInt8 × Client σ :=
  match c.exchange Wire.requestIacPosition 1 with
  | (.error e, c) => (.error e, c)
  | (.ok reply, c) => (.ok reply[0], c)

/-- The failure of an actuator command: an ECU that did not answer did not
carry out the command. -/
def actuatorFailure (actuator : Actuator) (e : Failure) : Failure :=
  if e.isNoAnswer then .commandFailed actuator.name else e

/-- Works an actuator and reads the byte that it answers with. -/
def testActuator (actuator : Actuator) (c : Client σ) : Except Failure UInt8 × Client σ :=
  match c.exchange actuator.code 1 with
  | (.error e, c) =>
    (.error (actuatorFailure actuator e), c.note (.actuatorFailed actuator e))
  | (.ok reply, c) => (.ok reply[0], c)

def disconnect (c : Client σ) : Client σ :=
  if c.connected then { c.note .disconnecting with connected := false } else c

end Client
end MemsProbe
