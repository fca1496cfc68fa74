/-
A whole run of the program over a link: wake the ECU, show who answered,
carry out one command, disconnect.

Reads are repeated as often as asked. A read that fails is noted and
skipped, and the run succeeds if one read did; only a failure to write to
the user ends the repetition early. Whatever happens, a run that ends
leaves the client disconnected, so that a second run on it fails at its
first step without touching the line.
-/
import MemsProbe.Actuation
import MemsProbe.Command
import MemsProbe.Console
import MemsProbe.ReadCount
import MemsProbe.Reading.Report

namespace MemsProbe

/-- How what was read is written. -/
inductive OutputFormat where
  | text
  | json
  deriving DecidableEq, Repr

namespace OutputFormat

def name : OutputFormat → String
  | text => "text"
  | json => "json"

/-- The format of that very name. -/
def ofName? (s : String) : Option OutputFormat :=
  [text, json].find? (·.name == s)

end OutputFormat

structure RunOptions where
  readCount : ReadCount := .times 1
  outputFormat : OutputFormat := .text
  console : ConsoleSettings := {}
  closeLimit : UInt8 := Actuation.defaultCloseLimit
  deriving DecidableEq, Repr

namespace Diagnostics

variable {σ ω α : Type} [Line σ] [Sink ω]

/-! ## What is shown -/

/-- The line that shows the identity of the ECU, and an empty one. -/
def headerText (id : List UInt8) : String :=
  "ECU responded to D0 command with: " ++ " ".intercalate (id.map Hex.byte) ++ "\n\n"

def readingText (format : OutputFormat) (r : Reading) : String :=
  match format with
  | .text => r.report ++ "\n"
  | .json => r.json ++ "\n"

/-- Bytes as a JSON array of numbers. -/
def byteArrayText (bytes : List UInt8) : String :=
  "[" ++ ",".intercalate (bytes.map fun b => b.toNat.repr) ++ "]"

/-- Two frames as they came. In JSON the members are sorted by name. -/
def framesText (format : OutputFormat) (frames : Frame80 × Frame7D) : String :=
  match format with
  | .text =>
    "80: " ++ Hex.line frames.1.toList ++ "\n" ++ "7D: " ++ Hex.line frames.2.toList ++ "\n"
  | .json =>
    Reading.objectText
      [("7d", byteArrayText frames.2.toList), ("80", byteArrayText frames.1.toList)] ++ "\n"

def positionText (format : OutputFormat) (position : UInt8) : String :=
  match format with
  | .text => "0x" ++ Hex.byte position ++ "\n"
  | .json => Reading.objectText [("iac_position", position.toNat.repr)] ++ "\n"

/-! ## Repeated reads -/

/-- How repeated reads went so far. -/
structure Tally where
  reads : Nat := 0
  succeeded : Nat := 0
  lastFailure : Option Failure := none

/-- Whether so many reads are enough. -/
def isEnough (count : ReadCount) (reads : Nat) : Bool :=
  match count with
  | .times n => n ≤ reads
  | .forever => false

/-- What repeated reads come to: success if one succeeded, or else the last
failure. -/
def Tally.result (t : Tally) : Except Failure Unit :=
  if 0 < t.succeeded then .ok ()
  else .error (t.lastFailure.getD (.commandFailed "read loop ran zero times"))

/-- The end of repeated reads. -/
def finish (t : Tally) (c : Client σ) (out : ω) : Outcome Unit × Client σ × ω :=
  (.ofExcept t.result, c.note (.readsSucceeded t.succeeded t.reads), out)

/-- Repeats a read and shows what each one that succeeds gives, after some
reads. -/
def readLoop (fetch : Client σ → Except Failure α × Client σ) (render : α → String)
    (count : ReadCount) : (rounds : Nat) → Tally → Client σ → ω → Outcome Unit × Client σ × ω
  | 0, _, c, out => (.unfinished, c, out)
  | rounds + 1, t, c, out =>
    if isEnough count t.reads then finish t c out
    else if c.cancelled then
      finish { t with lastFailure := t.lastFailure.or (some .cancelled) }
        (c.note (.readLoopCancelled t.reads)) out
    else
      match fetch c with
      | (.ok a, c) =>
        match Sink.emit (render a) out with
        | (.error e, out) => (.failed e, c, out)
        | (.ok (), out) =>
          readLoop fetch render count rounds
            { t with reads := t.reads + 1, succeeded := t.succeeded + 1 } c out
      | (.error e, c) =>
        readLoop fetch render count rounds
          { t with reads := t.reads + 1, lastFailure := some e }
          (c.note (.readFailed (t.reads + 1) e)) out

/-! ## Commands -/

/-- Notes an actuator test that went well. -/
def report (r : ActuationReport) (c : Client σ) : Client σ :=
  c.note (.actuationCompleted r.actuator r.attempts r.readback)

/-- The outcome of an actuator test as that of a command. -/
def ofActuation (out : ω) : Outcome ActuationReport × Client σ → Outcome Unit × Client σ × ω
  | (.done r, c) => (.done (), report r c, out)
  | (.failed e, c) => (.failed e, c, out)
  | (.unfinished, c) => (.unfinished, c, out)

/-- The same for an actuator test that always ends. -/
def ofShortActuation (out : ω) (run : Except Failure ActuationReport × Client σ) :
    Outcome Unit × Client σ × ω :=
  ofActuation out (.ofExcept run.1, run.2)

/-- Reads the position of the idle air control valve and shows it. -/
def readPosition (format : OutputFormat) (c : Client σ) (out : ω) :
    Outcome Unit × Client σ × ω :=
  match c.readIacPosition with
  | (.error e, c) => (.failed e, c, out)
  | (.ok position, c) =>
    match Sink.print (positionText format position) out with
    | (.error e, out) => (.failed e, c, out)
    | (.ok (), out) => (.done (), c, out)

/-- The interactive console over the client's link. -/
def interactive (settings : ConsoleSettings) (rounds : Nat) (input : List UInt8) (c : Client σ)
    (out : ω) : Outcome Unit × Client σ × ω :=
  match Console.start settings c.link with
  | .error (e, link) => (.failed e, { c with link }, out)
  | .ok console =>
    match console.run rounds input out with
    | (.done _, console, out) => (.done (), { c with link := console.link }, out)
    | (.failed e, console, out) => (.failed e, { c with link := console.link }, out)
    | (.unfinished, console, out) => (.unfinished, { c with link := console.link }, out)

/-- Carries out a command. Every loop in it has the given number of rounds;
the input is for the console alone. -/
def execute (options : RunOptions) (rounds : Nat) (command : Command) (input : List UInt8)
    (c : Client σ) (out : ω) : Outcome Unit × Client σ × ω :=
  match command with
  | .read =>
    readLoop Client.readData (readingText options.outputFormat) options.readCount rounds {} c out
  | .readRaw =>
    readLoop Client.readRaw (framesText options.outputFormat) options.readCount rounds {} c out
  | .readIac => readPosition options.outputFormat c out
  | .ptc => ofShortActuation out (Actuation.toggleRelay .ptc c)
  | .fuelPump => ofShortActuation out (Actuation.toggleRelay .fuelPump c)
  | .ac => ofShortActuation out (Actuation.toggleRelay .airCon c)
  | .iacClose => ofActuation out (Actuation.closeIac rounds options.closeLimit c)
  | .iacOpen => ofActuation out (Actuation.openIac rounds c)
  | .coil => ofShortActuation out (Actuation.singleShot .fireCoil c)
  | .injectors => ofShortActuation out (Actuation.singleShot .testInjectors c)
  | .interactive => interactive options.console rounds input c out

/-- Wakes the ECU, shows its identity and carries out a command. -/
def wakeAndExecute (options : RunOptions) (rounds : Nat) (command : Command) (input : List UInt8)
    (c : Client σ) (out : ω) : Outcome Unit × Client σ × ω :=
  match c.initLink with
  | (.error e, c) => (.failed e, c, out)
  | (.ok id, c) =>
    match Sink.print (headerText id.toList) out with
    | (.error e, out) => (.failed e, c, out)
    | (.ok (), out) => execute options rounds command input c out

/-- A whole run, which disconnects the client when it ends. -/
def run (options : RunOptions) (rounds : Nat) (command : Command) (input : List UInt8)
    (c : Client σ) (out : ω) : Outcome Unit × Client σ × ω :=
  match wakeAndExecute options rounds command input c out with
  | (.unfinished, c, out) => (.unfinished, c, out)
  | (ended, c, out) => (ended, c.disconnect, out)

end Diagnostics
end MemsProbe
