/-
The settings file: three sections, each of which may be missing, with
fields that may be missing in turn.

A section is a table, or an array that gives all its fields in order. What
a table has beyond its fields is ignored as long as every number in it is
one that can be held. The names of the policies and formats are those the
user types; in place of a name may stand a table with the name as its only
key and nothing under it.
-/
import MemsProbe.Diagnostics
import MemsProbe.Settings.Bounds
import MemsProbe.Text.Placeholder
import MemsProbe.Toml.Document

namespace MemsProbe

structure SerialSection where
  baudRate : Option Nat := none
  /-- Milliseconds that a read waits. -/
  readTimeout : Option Nat := none
  deriving DecidableEq, Repr

structure ConsoleSection where
  hexPolicy : Option HexPolicy := none
  /-- Milliseconds of silence that end a reply; none at all if zero. -/
  inactivityTimeout : Option Nat := none
  responseCapacity : Option Nat := none
  deriving DecidableEq, Repr

structure OutputSection where
  format : Option OutputFormat := none
  deriving DecidableEq, Repr

structure SettingsFile where
  serial : Option SerialSection := none
  console : Option ConsoleSection := none
  output : Option OutputSection := none
  deriving DecidableEq, Repr

namespace SettingsFile

/-! ## Fields -/

def baudRate (f : SettingsFile) : Option Nat :=
  f.serial.bind (·.baudRate)

def readTimeout (f : SettingsFile) : Option Nat :=
  f.serial.bind (·.readTimeout)

def hexPolicy (f : SettingsFile) : Option HexPolicy :=
  f.console.bind (·.hexPolicy)

def inactivityTimeout (f : SettingsFile) : Option Nat :=
  f.console.bind (·.inactivityTimeout)

def responseCapacity (f : SettingsFile) : Option Nat :=
  f.console.bind (·.responseCapacity)

def outputFormat (f : SettingsFile) : Option OutputFormat :=
  f.output.bind (·.format)

/-- Checks the fields that are there, one after the other. -/
def validate (f : SettingsFile) : Except Failure Unit := do
  Bounds.ifPresent (Bounds.baudRate "serial.baud_rate") f.baudRate
  Bounds.ifPresent (Bounds.readTimeout "serial.read_timeout_ms") f.readTimeout
  Bounds.ifPresent (Bounds.responseCapacity "console.response_capacity") f.responseCapacity
  Bounds.ifPresent (Bounds.inactivityTimeout "console.inactivity_timeout_ms") f.inactivityTimeout

/-! ## Reading the fields from a tree -/

open Toml (Value Entries)

/-- A whole number that a field can hold. -/
def naturalBelow (limit : Nat) : Value → Option Nat
  | .integer (some (.ofNat n)) => if n < limit then some n else none
  | _ => none

/-- Whether nothing stands under the only key of a table that names a
choice. -/
def isNothing : Value → Bool
  | .array items => items.isEmpty
  | .table _ entries => entries.isEmpty
  | _ => false

/-- One of several things by its name. -/
def choice {α : Type} (ofName? : String → Option α) : Value → Option α
  | .string s => ofName? s
  | .table _ [(key, v)] => if isNothing v then ofName? key else none
  | _ => none

/-- One more than the largest number of 127 bits. -/
def limit127 : Int := 0x8000_0000_0000_0000_0000_0000_0000_0000

/-- One more than the largest number of 128 bits. -/
def limit128 : Int := 0x1_0000_0000_0000_0000_0000_0000_0000_0000

/-- Whether an integer that is not looked at can be held at all: it has at
most 128 bits, with a sign or without. -/
def isHeld (i : Int) : Bool :=
  -limit127 ≤ i && i < limit128

mutual

/-- Whether every number in a value can be held. -/
def isIgnorable : Value → Bool
  | .integer i => i.any isHeld
  | .float finite => finite
  | .array items => areIgnorable items
  | .tables items => areIgnorable items
  | .table _ entries => entriesIgnorable entries
  | .string _ | .boolean _ | .moment => true

/-- The same for each of several values. -/
def areIgnorable : List Value → Bool
  | [] => true
  | v :: vs => isIgnorable v && areIgnorable vs

/-- The same for the values of a table. -/
def entriesIgnorable : List (String × Value) → Bool
  | [] => true
  | (_, v) :: es => isIgnorable v && entriesIgnorable es

end

/-- Whether what a table has beyond the given keys can be ignored. -/
def othersIgnorable (keys : List String) (es : Entries) : Bool :=
  entriesIgnorable (es.filter fun e => !keys.contains e.1)

/-- A field that need not be there, but is sound if it is. -/
def field {α : Type} (read : Value → Option α) (key : String) (es : Entries) : Option (Option α) :=
  match es.get? key with
  | none => some none
  | some v => (read v).map some

def baudRateOf : Value → Option Nat :=
  naturalBelow Numeral.limit32

def number64 : Value → Option Nat :=
  naturalBelow Numeral.limit64

/-- The fields of a section written as a table. A date or time counts as a
table without any of them. -/
def sectionEntries : Value → Option Entries
  | .table _ es => some es
  | .moment => some []
  | _ => none

/-- The values of a section written as an array. -/
def sectionItems : Value → Option (List Value)
  | .array items => some items
  | .tables items => some items
  | _ => none

def serialOf (v : Value) : Option SerialSection :=
  match sectionItems v with
  | some (baud :: timeout :: _) => do
    return ⟨some (← baudRateOf baud), some (← number64 timeout)⟩
  | some _ => none
  | none => do
    let es ← sectionEntries v
    guard (othersIgnorable ["baud_rate", "read_timeout_ms"] es)
    return ⟨← field baudRateOf "baud_rate" es, ← field number64 "read_timeout_ms" es⟩

def consoleOf (v : Value) : Option ConsoleSection :=
  match sectionItems v with
  | some (policy :: timeout :: capacity :: _) => do
    return ⟨some (← choice HexPolicy.ofName? policy), some (← number64 timeout),
      some (← number64 capacity)⟩
  | some _ => none
  | none => do
    let es ← sectionEntries v
    guard (othersIgnorable ["hex_policy", "inactivity_timeout_ms", "response_capacity"] es)
    return ⟨← field (choice HexPolicy.ofName?) "hex_policy" es,
      ← field number64 "inactivity_timeout_ms" es, ← field number64 "response_capacity" es⟩

def outputOf (v : Value) : Option OutputSection :=
  match sectionItems v with
  | some (format :: _) => do
    return ⟨some (← choice OutputFormat.ofName? format)⟩
  | some _ => none
  | none => do
    let es ← sectionEntries v
    guard (othersIgnorable ["format"] es)
    return ⟨← field (choice OutputFormat.ofName?) "format" es⟩

/-- The settings in a document. -/
def ofEntries (es : Entries) : Option SettingsFile := do
  guard (othersIgnorable ["serial", "console", "output"] es)
  return ⟨← field serialOf "serial" es, ← field consoleOf "console" es,
    ← field outputOf "output" es⟩

/-- The settings in a text of TOML, or what is said against it. -/
def read (text : String) : Except String SettingsFile :=
  match (Toml.parse text).bind ofEntries with
  | some f => .ok f
  | none => .error "there are no settings in the text"

/-! ## Loading -/

/-- The failure of a text that gives no settings, with what its reader has
said against it. -/
def notToml (objection : String) : Failure :=
  .config ("TOML parsing error: " ++ objection)

/-- The settings that a reader finds in a text, in which the variables of the
environment are put for their placeholders first. -/
def parseWith (reader : String → Except String SettingsFile) (environment : Placeholder.Values)
    (text : String) : Except Failure SettingsFile :=
  (reader (Placeholder.fill environment text)).mapError notToml

def parse : Placeholder.Values → String → Except Failure SettingsFile :=
  parseWith read

/-- The variables that the bytes of a file name. -/
def variableNames (bytes : List UInt8) : List String :=
  ((Text.decode? bytes).map Placeholder.names).getD []

/-- The settings that a reader finds in the bytes of a file. -/
def ofBytesWith (reader : String → Except String SettingsFile) (environment : Placeholder.Values)
    (bytes : List UInt8) : Except Failure SettingsFile :=
  match Text.decode? bytes with
  | some text => parseWith reader environment text
  | none => .error Console.notText

def ofBytes : Placeholder.Values → List UInt8 → Except Failure SettingsFile :=
  ofBytesWith read

end SettingsFile
end MemsProbe
