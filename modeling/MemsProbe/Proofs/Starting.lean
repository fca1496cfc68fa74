/-
How a run ends where no device opens.

A run is put into a world (`World`): the files there are, the environment,
how settings are read out of a text, and what the port says of each device.
The world keeps a record of what it is asked. `World.Ends` tells how a request
ends there, one way for each step that can fail, on the condition that the
steps before it did not; `start_fails` says that a run ends so and asks for
nothing else, whatever requests its arguments are read as. Until the settings
stand, nothing is written and no device is tried.
-/
import MemsProbe.Program
import MemsProbe.Proofs.Layers
import MemsProbe.Proofs.Paths
import MemsProbe.Proofs.Placeholders

namespace MemsProbe

/-! ## How the program is called -/

/-- The name that the program goes by: the one at the end of what it was
called by, or its own if there is none. -/
inductive Usage.GoesBy (calledAs : String) : String → Prop
  | called : Path.EndsIn calledAs.toList name.toList → GoesBy calledAs name
  | uncalled : (∀ name : String, ¬ Path.EndsIn calledAs.toList name.toList) → GoesBy calledAs "readmems"

theorem Usage.goesBy_iff {calledAs name : String} : GoesBy calledAs name ↔ programName calledAs = name := by
  constructor
  · intro h
    cases h with
    | called hname => rw [programName, Path.fileName?_eq_some_iff.2 hname, Option.getD_some]
    | uncalled hnone => rw [programName, Path.fileName?_eq_none_iff.2 hnone, Option.getD_none]
  · rintro rfl
    rw [programName]
    cases hname : Path.fileName? calledAs with
    | some name => exact .called (Path.fileName?_eq_some_iff.1 hname)
    | none => exact .uncalled (Path.fileName?_eq_none_iff.1 hname)

/-- What a program of that name prints of how it is called. -/
def Usage.told (name : String) : String :=
  "readmems v0.1.0\n" ++
  "Diagnostic utility using ROSCO protocol for MEMS 1.6 systems\n" ++
  "Usage: " ++ name ++ " <serial device> <command> [read-loop-count]\n" ++
  " where <command> is one of the following:\n" ++
  "\tread\n\tread-raw\n\tread-iac\n\tptc\n\tfuelpump\n\tiac-close\n\tiac-open\n\tac\n\tcoil\n" ++
  "\tinjectors\n\tinteractive\n" ++
  " and [read-loop-count] is either a number or 'inf' to read forever.\n"

theorem Usage.text_eq (name : String) : text name = told name := by
  have hversion : "readmems v" ++ version ++ "\n" = "readmems v0.1.0\n" := rfl
  have hcommands : String.join (Command.all.map commandLine) =
      "\tread\n\tread-raw\n\tread-iac\n\tptc\n\tfuelpump\n\tiac-close\n\tiac-open\n\tac\n\tcoil\n" ++
        "\tinjectors\n\tinteractive\n" :=
    rfl
  unfold text told
  rw [hversion, hcommands]
  simp only [String.append_assoc]

/-! ## The bytes of a text -/

theorem Text.decode?_eq_some_iff {bytes : List UInt8} {text : String} :
    decode? bytes = some text ↔ bytes = text.toUTF8.data.toList := by
  rw [decode?, String.fromUTF8?, Option.dite_none_right_eq_some]
  constructor
  · rintro ⟨hvalid, htext⟩
    obtain rfl := Option.some.inj htext
    rfl
  · rintro rfl
    exact ⟨text.isValidUTF8, rfl⟩

theorem Text.decode?_eq_none_iff {bytes : List UInt8} :
    decode? bytes = none ↔ ∀ text : String, bytes ≠ text.toUTF8.data.toList := by
  rw [Option.eq_none_iff_forall_ne_some]
  exact forall_congr' fun text => not_congr Text.decode?_eq_some_iff

/-! ## Worlds -/

/-- A question that a run puts to the system. -/
inductive Query where
  | contents (path : String)
  | value (name : String)
  | device (path : String) (baudRate readTimeout : Nat)
  deriving DecidableEq, Repr

def Query.isDevice : Query → Bool
  | device _ _ _ => true
  | _ => false

/-- What a run finds around it. There is no device that opens. -/
structure World where
  /-- The bytes of a file, or what the system says in place of them. -/
  contents : (path : String) → Except String (List UInt8)
  environment : Placeholder.Values
  /-- What is told of the environment when the values of some names are asked. -/
  told : (names : List String) → Placeholder.Values
  told_get? : ∀ names, ∀ name ∈ names, (told names).get? name = environment.get? name
  /-- The settings in a text, or what is said against it. -/
  readSettings : (text : String) → Except String SettingsFile
  /-- What the port says of a device. -/
  refusal : (path : String) → (baudRate readTimeout : Nat) → String

namespace World

/-- Gives an answer and puts what was asked on record. -/
def reply {α : Type} (a : α) (queries : List Query) : StateM (List Query) α :=
  fun asked => (a, asked ++ queries)

/-- The system of a world, with a record of what it was asked. -/
def system (w : World) (δ : Type) : System δ (StateM (List Query)) where
  environment names := reply (w.told names) (names.map .value)
  fileContents path := reply ((w.contents path).mapError .io) [.contents path]
  readSettings := w.readSettings
  openDevice path baudRate readTimeout :=
    reply (.error (.serial (w.refusal path baudRate readTimeout))) [.device path baudRate readTimeout]

theorem reply_bind {α β : Type} (a : α) (queries asked : List Query) (f : α → StateM (List Query) β) :
    (reply a queries >>= f).run asked = (f a).run (asked ++ queries) :=
  rfl

/-! ## Endings -/

/-- A file cannot be read, or what it holds is the bytes of no text. -/
inductive Unreadable (w : World) (path : String) : Prop
  | refused : w.contents path = .error why → Unreadable w path
  | notText : w.contents path = .ok bytes → (∀ text : String, bytes ≠ text.toUTF8.data.toList) → Unreadable w path

/-- A file holds the bytes of a text. -/
def Holds (w : World) (path text : String) : Prop :=
  w.contents path = .ok text.toUTF8.data.toList

/-- The settings in a text with the environment put in. -/
def settingsIn (w : World) (text : String) : Except String SettingsFile :=
  w.readSettings (Placeholder.fill w.environment text)

/-- What is asked for the settings in a file with that text. -/
def fileQueries (path text : String) : List Query :=
  .contents path :: (Placeholder.names text).map .value

/-- The settings file that is named gives settings, or none is named. -/
inductive Loads (w : World) : Option String → Option SettingsFile → List Query → Prop
  | unnamed : Loads w none none []
  | named : w.Holds path text → w.settingsIn text = .ok file → Loads w (some path) (some file) (fileQueries path text)

/-- The settings of a request stand. -/
def Settles (w : World) (r : Request) : Prop :=
  ∃ file queries s, w.Loads r.config file queries ∧ Settings.resolve r.device file r.overrides = .ok s

/-- How a request ends in a world: what it writes, its exit code, and what is
asked for it. -/
inductive Ends (w : World) (r : Request) : (output : String) → (exitCode : Nat) → List Query → Prop
  /-- The settings file cannot be read. -/
  | unreadable : r.config = some path → w.Unreadable path → Ends w r "" 2 [.contents path]
  /-- The settings file gives no settings. -/
  | rejected : r.config = some path → w.Holds path text → w.settingsIn text = .error objection →
      Ends w r "" 1 (fileQueries path text)
  /-- The settings do not stand. -/
  | unresolved : w.Loads r.config file queries → Settings.resolve r.device file r.overrides = .error e →
      Ends w r "" 1 queries
  /-- The device does not open. -/
  | unopened : w.Loads r.config file queries → Settings.resolve r.device file r.overrides = .ok s →
      Ends w r (if r.command = .interactive then "" else "Running command: " ++ r.command.name ++ "\n") 2
        (queries ++ [.device r.device s.baudRate s.readTimeout])

section

variable {w : World} {r : Request} {path text output : String} {exitCode : Nat} {queries : List Query}

theorem unreadable_or_holds (w : World) (path : String) : w.Unreadable path ∨ ∃ text, w.Holds path text := by
  cases hcontents : w.contents path with
  | error why => exact .inl (.refused hcontents)
  | ok bytes =>
    cases htext : Text.decode? bytes with
    | none => exact .inl (.notText hcontents (Text.decode?_eq_none_iff.1 htext))
    | some text =>
      obtain rfl := Text.decode?_eq_some_iff.1 htext
      exact .inr ⟨text, hcontents⟩

theorem exists_ends_of_loads {file : Option SettingsFile} (h : w.Loads r.config file queries) :
    ∃ output exitCode queries, w.Ends r output exitCode queries := by
  cases hresolve : Settings.resolve r.device file r.overrides with
  | error e => exact ⟨_, _, _, .unresolved h hresolve⟩
  | ok s => exact ⟨_, _, _, .unopened h hresolve⟩

/-- There is an end to every request. -/
theorem exists_ends (w : World) (r : Request) : ∃ output exitCode queries, w.Ends r output exitCode queries := by
  cases hconfig : r.config with
  | none => exact exists_ends_of_loads (hconfig ▸ Loads.unnamed)
  | some path =>
    obtain hnone | ⟨text, htext⟩ := unreadable_or_holds w path
    · exact ⟨_, _, _, .unreadable hconfig hnone⟩
    · cases hsettings : w.settingsIn text with
      | error objection => exact ⟨_, _, _, .rejected hconfig htext hsettings⟩
      | ok file => exact exists_ends_of_loads (hconfig ▸ Loads.named htext hsettings)

theorem fileQueries_isDevice : ∀ q ∈ fileQueries path text, q.isDevice = false := by
  simp [fileQueries, Query.isDevice]

theorem Loads.isDevice {config : Option String} {file : Option SettingsFile} (h : w.Loads config file queries) :
    ∀ q ∈ queries, q.isDevice = false := by
  cases h with
  | unnamed => nofun
  | named => exact fileQueries_isDevice

theorem Ends.exitCode_ne_zero (h : w.Ends r output exitCode queries) : exitCode ≠ 0 := by
  cases h <;> simp

/-- Nothing is written and no device is tried before the settings stand. -/
theorem Ends.settles_or (h : w.Ends r output exitCode queries) :
    w.Settles r ∨ output = "" ∧ ∀ q ∈ queries, q.isDevice = false := by
  cases h with
  | unreadable => exact .inr ⟨rfl, by simp [Query.isDevice]⟩
  | rejected => exact .inr ⟨rfl, fileQueries_isDevice⟩
  | unresolved hloads => exact .inr ⟨rfl, hloads.isDevice⟩
  | unopened hloads hs => exact .inl ⟨_, _, _, hloads, hs⟩

end

end World

/-! ## Steps -/

section

variable {w : World} {δ : Type} {path text output : String} {exitCode : Nat} {file : Option SettingsFile}
  {queries asked : List Query} {r : Request} {ending : Ending}

theorem Settings.resolve_exitCode {device : String} {o : Overrides} {e : Failure}
    (h : Settings.resolve device file o = .error e) : e.exitCode = 1 := by
  obtain ⟨-, d, -, -, -, -, rfl⟩ := Demand.check_error (Settings.resolve_error h)
  rfl

theorem Settings.resolve_device {device : String} {o : Overrides} {s : Settings}
    (h : Settings.resolve device file o = .ok s) : s.device = device := by
  rw [(Settings.resolve_ok_iff.1 h).2]
  rfl

theorem SettingsFile.variableNames_text {bytes : List UInt8} (hbytes : Text.decode? bytes = some text) :
    SettingsFile.variableNames bytes = Placeholder.names text := by
  rw [SettingsFile.variableNames, hbytes]
  rfl

/-- What is told of the names in a text is all that filling it takes. -/
theorem SettingsFile.ofBytesWith_text {bytes : List UInt8} (hbytes : Text.decode? bytes = some text) :
    SettingsFile.ofBytesWith w.readSettings (w.told (Placeholder.names text)) bytes =
      (w.settingsIn text).mapError SettingsFile.notToml := by
  have hfill : Placeholder.fill (w.told (Placeholder.names text)) text = Placeholder.fill w.environment text :=
    Placeholder.fill_congr (w.told_get? _)
  rw [SettingsFile.ofBytesWith, hbytes]
  dsimp only
  rw [SettingsFile.parseWith, hfill, World.settingsIn]

namespace Program

theorem loadFile_refused {why : String} (h : w.contents path = .error why) :
    (loadFile (w.system δ) path).run asked = (.error (.io why), asked ++ [.contents path]) := by
  simp only [loadFile, World.system, World.reply_bind, h, Except.mapError]
  rfl

theorem loadFile_bytes {bytes : List UInt8} (h : w.contents path = .ok bytes) :
    (loadFile (w.system δ) path).run asked =
      (SettingsFile.ofBytesWith w.readSettings (w.told (SettingsFile.variableNames bytes)) bytes,
        asked ++ .contents path :: (SettingsFile.variableNames bytes).map .value) := by
  simp only [loadFile, World.system, World.reply_bind, h, Except.mapError, List.append_assoc]
  rfl

theorem loadFile_unreadable (h : w.Unreadable path) (asked : List Query) :
    ∃ why, (loadFile (w.system δ) path).run asked = (.error (.io why), asked ++ [.contents path]) := by
  cases h with
  | refused hwhy => exact ⟨_, loadFile_refused hwhy⟩
  | notText hbytes htext =>
    refine ⟨"stream did not contain valid UTF-8", ?_⟩
    rw [loadFile_bytes hbytes, SettingsFile.variableNames, SettingsFile.ofBytesWith, Text.decode?_eq_none_iff.2 htext]
    rfl

theorem loadFile_text (h : w.Holds path text) :
    (loadFile (w.system δ) path).run asked =
      ((w.settingsIn text).mapError SettingsFile.notToml, asked ++ World.fileQueries path text) := by
  have htext := Text.decode?_eq_some_iff.2 (Eq.refl text.toUTF8.data.toList)
  rw [loadFile_bytes h, SettingsFile.variableNames_text htext, SettingsFile.ofBytesWith_text htext]
  rfl

theorem settings_of_loads (h : w.Loads r.config file queries) :
    (settings (w.system δ) r).run asked = (resolve r file, asked ++ queries) := by
  generalize hconfig : r.config = config at h
  cases h with
  | unnamed =>
    simp only [settings, hconfig, List.append_nil]
    rfl
  | @named path text file htext hfile =>
    have hload : (loadFile (w.system δ) path).run asked = _ := loadFile_text htext
    rw [hfile] at hload
    simp only [settings, hconfig, StateT.run_bind, hload]
    rfl

theorem openDevice_refused (w : World) (c : Command) (s : Settings) (asked : List Query) :
    ∃ complaint, (openDevice (w.system δ) c s).run asked =
      (.error { output := announcement c, complaint, exitCode := 2 },
        asked ++ [.device s.device s.baudRate s.readTimeout]) := by
  simp only [openDevice, World.system, World.reply_bind]
  exact ⟨_, rfl⟩

theorem carryOut_of_error (h : (settings (w.system δ) r).run asked = (.error ending, queries)) :
    (carryOut (w.system δ) r).run asked = (.error ending, queries) := by
  simp only [carryOut, StateT.run_bind, h]
  rfl

theorem carryOut_unloaded {f : Failure} (h : r.config = some path)
    (hload : (loadFile (w.system δ) path).run asked = (.error f, queries)) :
    ∃ complaint, (carryOut (w.system δ) r).run asked =
      (.error { output := "", complaint, exitCode := f.exitCode }, queries) := by
  have hsettings : (settings (w.system δ) r).run asked =
      (.error (failed "" ("failed to load settings file Some(" ++ Text.quoted path ++ "): ") f), queries) := by
    simp only [settings, h, StateT.run_bind, hload]
    rfl
  exact ⟨_, carryOut_of_error hsettings⟩

theorem carryOut_of_ok {s : Settings} (h : (settings (w.system δ) r).run asked = (.ok s, queries)) :
    (carryOut (w.system δ) r).run asked = (openDevice (w.system δ) r.command s).run queries := by
  simp only [carryOut, StateT.run_bind, h]
  rfl

end Program

theorem World.Ends.carryOut (h : w.Ends r output exitCode queries) :
    ∃ complaint, (Program.carryOut (w.system δ) r).run asked =
      (.error { output, complaint, exitCode }, asked ++ queries) := by
  cases h with
  | @unreadable path hconfig hnone =>
    obtain ⟨why, hload⟩ := Program.loadFile_unreadable (δ := δ) hnone asked
    exact Program.carryOut_unloaded hconfig hload
  | @rejected path text objection hconfig htext hnone =>
    have hload : (Program.loadFile (w.system δ) path).run asked = _ := Program.loadFile_text htext
    rw [hnone] at hload
    exact Program.carryOut_unloaded hconfig hload
  | @unresolved file queries e hloads he =>
    have hsettings : (Program.settings (w.system δ) r).run asked = _ := Program.settings_of_loads hloads
    rw [Program.resolve, he] at hsettings
    refine ⟨"Error: " ++ e.account ++ "\n", ?_⟩
    rw [Program.carryOut_of_error hsettings, Program.failed, Settings.resolve_exitCode he]
    rfl
  | @unopened file queries s hloads hs =>
    have hsettings : (Program.settings (w.system δ) r).run asked = _ := Program.settings_of_loads hloads
    rw [Program.resolve, hs] at hsettings
    obtain ⟨complaint, hopen⟩ := Program.openDevice_refused (δ := δ) w r.command s (asked ++ queries)
    refine ⟨complaint, ?_⟩
    rw [Program.carryOut_of_ok hsettings, hopen, Settings.resolve_device hs, List.append_assoc]
    rfl

/-! ## Runs -/

/-- A command is found by its own name. -/
theorem Command.ofName?_name (c : Command) : ofName? c.name = some c := by
  have hname : c.name.map Char.toLower = c.name := by
    rw [← String.toList_inj, String.toList_map]
    cases c <;> decide
  rw [ofName?, hname]
  cases c <;> decide

theorem Arguments.settle_command (device : String) (c : Command) :
    Draft.settle { device := some device, pending := some (.command, some c.name), positionals := 2 } =
      .ok { device := some device, command := some c, positionals := 2 } := by
  simp only [Draft.settle, Draft.put, Command.ofName?_name, orFault]
  rfl

namespace Program

/-- **A run without a device ends at its first step that fails.** Called with
fewer than two arguments, it only tells how it is called and asks the system
for nothing. With arguments that are read as a request, whatever their reader
is, it ends as that request ends: by its settings file, its settings or its
device, whichever is the first to fail, never with success. Where the settings
do not stand, nothing is written and no device is tried. -/
theorem start_fails (parse : List String → Except Arguments.Fault Request) (w : World) (δ : Type)
    (argv : List String) :
    (argv.tail.length < 2 → ∃ name, Usage.GoesBy (argv.headD "") name ∧
        (startWith parse (w.system δ) (argv.headD "") argv.tail).run [] =
          (.error { output := Usage.told name, complaint := "", exitCode := 0 }, [])) ∧
      ∀ r, 2 ≤ argv.tail.length → parse argv.tail = .ok r →
        (∃ output exitCode queries, w.Ends r output exitCode queries) ∧
          ∀ output exitCode queries, w.Ends r output exitCode queries →
            (∃ complaint, (startWith parse (w.system δ) (argv.headD "") argv.tail).run [] =
                (.error { output, complaint, exitCode }, queries)) ∧
              exitCode ≠ 0 ∧
              (w.Settles r ∨ output = "" ∧ ∀ q ∈ queries, q.isDevice = false) := by
  constructor
  · intro hfew
    refine ⟨_, Usage.goesBy_iff.2 rfl, ?_⟩
    rw [startWith, if_pos hfew, usage, Usage.text_eq]
    rfl
  · intro r henough hparse
    refine ⟨w.exists_ends r, fun output exitCode queries h => ⟨?_, h.exitCode_ne_zero, h.settles_or⟩⟩
    rw [startWith, if_neg (Nat.not_lt.2 henough), hparse]
    exact h.carryOut

/-- A world with two files: one is no text, and the other says nothing once
its only variable is put in. -/
def barren : World where
  contents path :=
    if path = "junk" then .ok [255]
    else if path = "note" then .ok [36, 123, 78, 125]  -- a dollar sign and N in braces
    else .error "No such file or directory (os error 2)"
  environment := [("N", "#")]
  told _ := [("N", "#")]
  told_get? _ _ _ := rfl
  readSettings := SettingsFile.read
  refusal _ _ _ := "No such file or directory"

/-- A reading at a speed out of bounds, as far as its settings file. -/
def hasty : Arguments.Draft where
  device := some "COM3"
  command := some .read
  positionals := 2
  pending := some (.setting .baud, some "5")

theorem gather_hasty (rest : List String) :
    Arguments.gather false ("COM3" :: "read" :: "--baud" :: "5" :: rest) {} = Arguments.gather false rest hasty := by
  show (Arguments.Draft.setting .baud none
    { device := some "COM3", pending := some (.command, some Command.read.name), positionals := 2 } >>= _) = _
  rw [Arguments.Draft.setting, Arguments.settle_command]
  rfl

/-- Of a file that is no text and a speed out of bounds, the file comes first.
With the other file it is the speed, and the device is not tried. -/
theorem barren_fails :
    (start (barren.system Empty) "/opt/probe/." ["COM3"]).run [] = (.error { output := Usage.told "probe" }, []) ∧
      (∃ complaint, (start (barren.system Empty) "" ["COM3", "read", "--baud", "5", "-c", "junk"]).run [] =
        (.error { output := "", complaint, exitCode := 2 }, [.contents "junk"])) ∧
      (∃ complaint, (start (barren.system Empty) "" ["COM3", "read", "--baud", "5", "-c", "note"]).run [] =
        (.error { output := "", complaint, exitCode := 1 }, [.contents "note", .value "N"])) ∧
      ∃ complaint, (start (barren.system Empty) "" ["COM3", "ptc"]).run [] =
        (.error { output := "Running command: ptc\n", complaint, exitCode := 2 }, [.device "COM3" 9600 1000]) := by
  have hjunk : Arguments.parse ["COM3", "read", "--baud", "5", "-c", "junk"] =
      .ok { device := "COM3", command := .read, config := some "junk", overrides := { baudRate := some 5 } } := by
    rw [Arguments.parse, gather_hasty]
    rfl
  have hnote : Arguments.parse ["COM3", "read", "--baud", "5", "-c", "note"] =
      .ok { device := "COM3", command := .read, config := some "note", overrides := { baudRate := some 5 } } := by
    rw [Arguments.parse, gather_hasty]
    rfl
  have hplain : Arguments.parse ["COM3", "ptc"] = .ok { device := "COM3", command := .ptc } := by
    show Arguments.Draft.settle
      { device := some "COM3", pending := some (.command, some Command.ptc.name), positionals := 2 } >>= _ = _
    rw [Arguments.settle_command]
    rfl
  have hunreadable : barren.Unreadable "junk" := .notText rfl (Text.decode?_eq_none_iff.1 (by decide))
  have htext : barren.Holds "note" "$\x7bN\x7d" :=
    congrArg Except.ok (Text.decode?_eq_some_iff.1 (show Text.decode? [36, 123, 78, 125] = _ by decide))
  have hloads : barren.Loads (some "note") (some {}) [.contents "note", .value "N"] := .named htext rfl
  obtain ⟨husage, -⟩ := start_fails Arguments.parse barren Empty ["/opt/probe/.", "COM3"]
  obtain ⟨name, hname, hrun⟩ := husage (by decide)
  obtain rfl : "probe" = name := Usage.goesBy_iff.1 hname
  obtain ⟨-, hfile⟩ := start_fails Arguments.parse barren Empty ["", "COM3", "read", "--baud", "5", "-c", "junk"]
  obtain ⟨-, hspeed⟩ := start_fails Arguments.parse barren Empty ["", "COM3", "read", "--baud", "5", "-c", "note"]
  obtain ⟨-, hdevice⟩ := start_fails Arguments.parse barren Empty ["", "COM3", "ptc"]
  exact ⟨hrun, ((hfile _ (by decide) hjunk).2 _ _ _ (.unreadable rfl hunreadable)).1,
    ((hspeed _ (by decide) hnote).2 _ _ _ (.unresolved hloads rfl)).1,
    ((hdevice _ (by decide) hplain).2 _ _ _ (.unopened .unnamed rfl)).1⟩

end Program

end

end MemsProbe
