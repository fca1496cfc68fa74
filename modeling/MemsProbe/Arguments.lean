/-
The command line.

Three positional arguments, of which the last may be left out, and options
among them in any order; after `--` everything is positional. The value of
an argument is only looked at when the next argument that is known comes
along, or at the end. So of two mistakes it is not always the first that is
reported: an argument that is not known, or one too many, is reported at
once, before a bad value just ahead of it.
-/
import MemsProbe.Settings

namespace MemsProbe

/-- What the command line asks for. -/
structure Request where
  device : String
  command : Command
  /-- The settings file to load. -/
  config : Option String := none
  verbose : Bool := false
  overrides : Overrides := {}
  deriving DecidableEq, Repr

namespace Arguments

inductive Fault where
  /-- An argument that must be there is not. -/
  | missing
  /-- There is no such option, or one positional argument too many. -/
  | unknown
  /-- A value is not one of those to choose from, or an option has none. -/
  | invalidValue
  /-- A value is not a number that the option can hold. -/
  | malformed
  /-- An option was given twice. -/
  | repeated
  /-- A flag was given a value. -/
  | unneededValue
  /-- The user asked for help. -/
  | help
  deriving DecidableEq, Repr

/-- What the user is told of a fault. -/
def Fault.message : Fault → String
  | .missing => "a required argument is missing"
  | .unknown => "there is an argument that is not known"
  | .invalidValue => "an argument has a value that it cannot have, or none"
  | .malformed => "an argument has a value that is not of its form"
  | .repeated => "an option was given twice"
  | .unneededValue => "a flag was given a value"
  | .help => "help was asked for"

/-- The options that take a value. -/
inductive Setting where
  | config
  | baud
  | readTimeout
  | hexPolicy
  | inactivityTimeout
  | format
  deriving DecidableEq, Repr

/-- The options there are. -/
inductive Switch where
  | setting (s : Setting)
  | verbose
  | help
  deriving DecidableEq, Repr

def Switch.ofLong? : String → Option Switch
  | "config" => some (.setting .config)
  | "baud" => some (.setting .baud)
  | "read-timeout-ms" => some (.setting .readTimeout)
  | "hex-policy" => some (.setting .hexPolicy)
  | "inactivity-timeout-ms" => some (.setting .inactivityTimeout)
  | "format" => some (.setting .format)
  | "verbose" => some .verbose
  | "help" => some .help
  | _ => none

def Switch.ofShort? : Char → Option Switch
  | 'c' => some (.setting .config)
  | 'v' => some .verbose
  | 'h' => some .help
  | _ => none

/-- What a value is for. -/
inductive Place where
  | device
  | command
  | readCount
  | setting (s : Setting)
  deriving DecidableEq, Repr

/-- Where the next positional argument belongs, after so many of them. -/
def Place.positional? : Nat → Option Place
  | 0 => some .device
  | 1 => some .command
  | 2 => some .readCount
  | _ => none

/-- What is known of the request so far. -/
structure Draft where
  device : Option String := none
  command : Option Command := none
  config : Option String := none
  verbose : Bool := false
  overrides : Overrides := {}
  /-- The argument whose value has not been looked at, and its value if it
  has come. -/
  pending : Option (Place × Option String) := none
  /-- Positional arguments that have come. -/
  positionals : Nat := 0

/-! ## Values -/

/-- A number of 32 bits, written as a signed one. -/
def number32 (s : String) : Option Nat :=
  match s.toList with
  | '-' :: digits =>
    match Numeral.readDigits 10 Numeral.limit64 digits with
    | .ok 0 => some 0
    | _ => none
  | digits => (Numeral.read 10 Numeral.limit32 digits).toOption

def number64 (s : String) : Option Nat :=
  (Numeral.read 10 Numeral.limit64 s.toList).toOption

/-- A value that must be there, or else the fault. -/
def orFault {α : Type} (fault : Fault) : Option α → Except Fault α
  | some a => .ok a
  | none => .error fault

/-- A value that an option may have only once. -/
def once {α : Type} (known : Option α) (fault : Fault) (value : Option α) :
    Except Fault (Option α) :=
  if known.isSome then .error .repeated else (orFault fault value).map some

/-- Takes the value of an option into a draft. -/
def Draft.putSetting (s : Setting) (value : String) (d : Draft) : Except Fault Draft := do
  let o := d.overrides
  match s with
  | .config => return { d with config := ← once d.config .malformed (some value) }
  | .baud =>
    let baudRate ← once o.baudRate .malformed (number32 value)
    return { d with overrides := { o with baudRate } }
  | .readTimeout =>
    let readTimeout ← once o.readTimeout .malformed (number64 value)
    return { d with overrides := { o with readTimeout } }
  | .hexPolicy =>
    let hexPolicy ← once o.hexPolicy .invalidValue (HexPolicy.ofName? value)
    return { d with overrides := { o with hexPolicy } }
  | .inactivityTimeout =>
    let inactivityTimeout ← once o.inactivityTimeout .malformed (number64 value)
    return { d with overrides := { o with inactivityTimeout } }
  | .format =>
    let outputFormat ← once o.outputFormat .invalidValue (OutputFormat.ofName? value)
    return { d with overrides := { o with outputFormat } }

/-- Takes the value of an argument into a draft. -/
def Draft.put (p : Place) (value : String) (d : Draft) : Except Fault Draft :=
  match p with
  | .device => .ok { d with device := some value }
  | .command => do
    let command ← orFault .invalidValue (Command.ofName? value)
    return { d with command := some command }
  | .readCount => do
    let readCount ← orFault .malformed (ReadCount.parse value).toOption
    return { d with overrides := { d.overrides with readCount := some readCount } }
  | .setting s => d.putSetting s value

/-- Looks at the value that is pending. -/
def Draft.settle (d : Draft) : Except Fault Draft :=
  match d.pending with
  | none => .ok d
  | some (_, none) => .error .invalidValue
  | some (p, some value) => { d with pending := none }.put p value

/-! ## Single arguments -/

/-- An option whose value is part of the argument, or comes with the next. -/
def Draft.setting (s : Setting) (attached : Option String) (d : Draft) : Except Fault Draft := do
  let d ← d.settle
  match attached with
  | some value => d.putSetting s value
  | none => return { d with pending := some (.setting s, none) }

def Draft.verboseFlag (d : Draft) : Except Fault Draft := do
  let d ← d.settle
  if d.verbose then throw .repeated else return { d with verbose := true }

/-- A request for help, which comes up only when all before it was sound. -/
def Draft.helpFlag (d : Draft) : Except Fault Draft := do
  let _ ← d.settle
  throw .help

/-- An argument that begins with two dashes, without them. -/
def Draft.long (body : List Char) (d : Draft) : Except Fault Draft :=
  let (name, rest) := body.span (· != '=')
  let attached := if rest.isEmpty then none else some (String.ofList rest.tail)
  match Switch.ofLong? (String.ofList name), attached with
  | none, _ => .error .unknown
  | some (.setting s), attached => d.setting s attached
  | some _, some _ => .error .unneededValue
  | some .verbose, none => d.verboseFlag
  | some .help, none => d.helpFlag

/-- The letters after a single dash. An option that takes a value takes the
rest of them for it, with or without an equals sign ahead. -/
def Draft.shorts : List Char → Draft → Except Fault Draft
  | [], d => .ok d
  | c :: cs, d =>
    match Switch.ofShort? c with
    | none => .error .unknown
    | some .verbose => do
      let d ← d.verboseFlag
      shorts cs d
    | some .help => d.helpFlag
    | some (.setting s) =>
      match cs with
      | [] => d.setting s none
      | '=' :: value => d.setting s (some (String.ofList value))
      | value => d.setting s (some (String.ofList value))

/-- A positional argument. -/
def Draft.positional (value : String) (d : Draft) : Except Fault Draft :=
  match Place.positional? d.positionals with
  | none => .error .unknown
  | some p => do
    let d ← d.settle
    return { d with pending := some (p, some value), positionals := d.positionals + 1 }

/-- An argument that is no option. -/
def Draft.value (value : String) (d : Draft) : Except Fault Draft :=
  match d.pending with
  | some (p, none) => .ok { d with pending := some (p, some value) }
  | _ => d.positional value

/-! ## The whole line -/

/-- Takes arguments one after the other; `trailing` once `--` has come. -/
def gather : (trailing : Bool) → List String → Draft → Except Fault Draft
  | _, [], d => .ok d
  | true, arg :: args, d => do
    let d ← d.positional arg
    gather true args d
  | false, arg :: args, d =>
    match arg.toList with
    | ['-', '-'] => gather true args d
    | '-' :: '-' :: body => do
      let d ← d.long body
      gather false args d
    | '-' :: c :: cs => do
      let d ← d.shorts (c :: cs)
      gather false args d
    | _ => do
      let d ← d.value arg
      gather false args d

/-- The request of a draft, if nothing is missing from it. -/
def Draft.request (d : Draft) : Except Fault Request :=
  match d.device, d.command with
  | some device, some command =>
    .ok { device, command, config := d.config, verbose := d.verbose, overrides := d.overrides }
  | _, _ => .error .missing

/-- The request that the arguments after the program's name make. -/
def parse (args : List String) : Except Fault Request := do
  let d ← gather false args {}
  let d ← d.settle
  d.request

end Arguments
end MemsProbe
