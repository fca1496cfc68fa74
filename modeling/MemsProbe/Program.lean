/-
A run of the program, as far as an open device.

With fewer than two arguments it only tells how it is called. Otherwise it
goes by steps, of which the first that fails ends the run: the arguments,
the settings file if one is named, the settings as a whole, the device.
The command is announced once the settings stand, so a run that ends before
has written nothing, and no device is tried under settings that do not hold.

The system is reached through three actions in a monad of the caller's
choice, so what a run asks of the system can be seen as well as how it ends.
The reader of settings files can be chosen as well, and so can that of the
arguments.
-/
import MemsProbe.Arguments
import MemsProbe.Text.Quoted
import MemsProbe.Usage

namespace MemsProbe

/-- What the program asks of the system; `δ` is an open device. -/
structure System (δ : Type) (m : Type → Type) where
  /-- The values of those variables that are set. -/
  environment : (names : List String) → m Placeholder.Values
  fileContents : (path : String) → m (Except Failure (List UInt8))
  /-- Finds the settings in the text of a file, or says why there are none. -/
  readSettings : (text : String) → Except String SettingsFile := SettingsFile.read
  openDevice : (path : String) → (baudRate readTimeout : Nat) → m (Except Failure δ)

/-- How a run ended. -/
structure Ending where
  /-- What went to the standard output. -/
  output : String := ""
  /-- What went to the standard error. -/
  complaint : String := ""
  exitCode : Nat := 0
  deriving DecidableEq, Repr

/-- A run that has its device. -/
structure Session (δ : Type) where
  device : δ
  settings : Settings
  command : Command

namespace Program

variable {δ : Type} {m : Type → Type} [Monad m]

/-! ## Endings -/

def usage (calledAs : String) : Ending :=
  { output := Usage.text (Usage.programName calledAs) }

/-- The end of a run whose arguments are not right. A request for help is
granted. -/
def refusal (calledAs : String) : Arguments.Fault → Ending
  | .help => usage calledAs
  | fault => { complaint := "error: " ++ fault.message ++ "\n", exitCode := 2 }

/-- The end of a run by a failure, with what the program was about. -/
def failed (output about : String) (f : Failure) : Ending :=
  { output, complaint := "Error: " ++ about ++ f.account ++ "\n", exitCode := f.exitCode }

/-! ## Steps -/

/-- The settings file of that name. -/
def loadFile (sys : System δ m) (path : String) : m (Except Failure SettingsFile) := do
  match ← sys.fileContents path with
  | .error f => return .error f
  | .ok bytes =>
    let environment ← sys.environment (SettingsFile.variableNames bytes)
    return SettingsFile.ofBytesWith sys.readSettings environment bytes

/-- The settings that a request makes with a file or without. -/
def resolve (r : Request) (file : Option SettingsFile) : Except Ending Settings :=
  (Settings.resolve r.device file r.overrides).mapError (failed "" "")

/-- The settings of a request. -/
def settings (sys : System δ m) (r : Request) : m (Except Ending Settings) := do
  match r.config with
  | none => return resolve r none
  | some path =>
    match ← loadFile sys path with
    | .error f =>
      let about := "failed to load settings file Some(" ++ Text.quoted path ++ "): "
      return .error (failed "" about f)
    | .ok file => return resolve r (some file)

/-- What is written before the device is tried. The console has the output
to itself. -/
def announcement (c : Command) : String :=
  if c = .interactive then "" else "Running command: " ++ c.name ++ "\n"

/-- Tries the device under settings that stand. -/
def openDevice (sys : System δ m) (c : Command) (s : Settings) : m (Except Ending (Session δ)) := do
  match ← sys.openDevice s.device s.baudRate s.readTimeout with
  | .error f =>
    return .error
      (failed (announcement c) ("could not open serial device (" ++ s.device ++ "): ") f)
  | .ok device => return .ok { device, settings := s, command := c }

/-- What becomes of a request. -/
def carryOut (sys : System δ m) (r : Request) : m (Except Ending (Session δ)) := do
  match ← settings sys r with
  | .error ending => return .error ending
  | .ok s => openDevice sys r.command s

/-- A run of the program, called by some name with some arguments, which are
read in the given way. -/
def startWith (parse : List String → Except Arguments.Fault Request) (sys : System δ m)
    (calledAs : String) (args : List String) : m (Except Ending (Session δ)) :=
  if args.length < 2 then return .error (usage calledAs)
  else
    match parse args with
    | .error fault => return .error (refusal calledAs fault)
    | .ok r => carryOut sys r

def start (sys : System δ m) : String → List String → m (Except Ending (Session δ)) :=
  startWith Arguments.parse sys

end Program
end MemsProbe
