/-
The three layers of the settings.

What becomes of the layers is said value by value (`Settings.effective`), and
what is asked of them is a list of demands in the order in which they are
made (`Settings.demands`): first those of the file by itself, then those of
what came of the layers. Settings are resolved if all of them are met, and
the first that is not is the one complained of (`resolve_layers`).
-/
import MemsProbe.Settings

namespace MemsProbe

/-! ## Demands -/

/-- A demand made of a setting: how the setting and its value are called
where it is not met, what is said then, and whether it is met. -/
structure Demand where
  field : String
  value : String
  reason : String
  met : Bool

namespace Demand

def failure (d : Demand) : Failure :=
  .invalidSetting d.field d.value d.reason

def between (least greatest : Nat) (field : String) (value : Nat) : Demand where
  field := field
  value := value.repr
  reason := "Value must be between " ++ least.repr ++ " and " ++ greatest.repr
  met := least ≤ value && value ≤ greatest

def atLeast (least : Nat) (field : String) (value : Nat) : Demand where
  field := field
  value := value.repr
  reason := "Value must be at least " ++ least.repr
  met := least ≤ value

def nonempty (field value : String) : Demand where
  field := field
  value := value
  reason := "Path cannot be empty"
  met := value ≠ ""

def withoutNull (field value : String) : Demand where
  field := field
  value := value
  reason := "Path contains null bytes"
  met := '\x00' ∉ value.toList

theorem between_met {least greatest : Nat} {field : String} {value : Nat} :
    (between least greatest field value).met = true ↔ least ≤ value ∧ value ≤ greatest := by
  simp [between]

theorem atLeast_met {least : Nat} {field : String} {value : Nat} :
    (Demand.atLeast least field value).met = true ↔ least ≤ value := by
  simp [Demand.atLeast]

theorem nonempty_met {field value : String} : (nonempty field value).met = true ↔ value ≠ "" := by
  simp [nonempty]

theorem withoutNull_met {field value : String} : (withoutNull field value).met = true ↔ '\x00' ∉ value.toList := by
  simp [withoutNull]

/-- The first demand that is not met is complained of. -/
def check (ds : List Demand) : Except Failure Unit :=
  match ds.find? (!·.met) with
  | some d => .error d.failure
  | none => .ok ()

theorem check_ok_iff {ds : List Demand} : check ds = .ok () ↔ ∀ d ∈ ds, d.met = true := by
  unfold check
  cases hf : ds.find? (!·.met) with
  | none => simpa using hf
  | some d =>
    have hmem := List.mem_of_find?_eq_some hf
    have hnot := List.find?_some hf
    simp only [reduceCtorEq, false_iff]
    intro h
    simp [h d hmem] at hnot

theorem check_error {ds : List Demand} {e : Failure} (h : check ds = .error e) :
    ∃ before d after, ds = before ++ d :: after ∧ (∀ b ∈ before, b.met = true) ∧ d.met = false ∧ e = d.failure := by
  unfold check at h
  split at h
  next d hf =>
    obtain ⟨hnot, before, after, rfl, hbefore⟩ := List.find?_eq_some_iff_append.1 hf
    exact ⟨before, d, after, rfl, by simpa using hbefore, by simpa using hnot, (Except.error.inj h).symm⟩
  next => simp at h

theorem check_append (ds ds' : List Demand) : check (ds ++ ds') = (check ds >>= fun _ => check ds') := by
  unfold check
  rw [List.find?_append]
  cases ds.find? (!·.met) <;> rfl

theorem forall_mem_toList {α : Type} (demand : α → Demand) (a : Option α) :
    (∀ d ∈ (a.map demand).toList, d.met = true) ↔ ∀ v ∈ a, (demand v).met = true := by
  cases a <;> simp

theorem check_toList {α : Type} (demand : α → Demand) {test : α → Except Failure Unit}
    (h : ∀ a, test a = check [demand a]) (a : Option α) :
    Bounds.ifPresent test a = check (a.map demand).toList := by
  cases a with
  | none => rfl
  | some a => exact h a

end Demand

open Demand

namespace Bounds

theorem within_check (field : String) (value least greatest : Nat) :
    within field value least greatest = check [between least greatest field value] := by
  by_cases h : value < least ∨ greatest < value
  · have hmet : (between least greatest field value).met = false := by simp [between]; omega
    have hout : ((value : Int) < least || (greatest : Int) < value) = true := by simp; omega
    rw [within, if_pos hout]
    simp [check, hmet]
    rfl
  · have hmet : (between least greatest field value).met = true := by simp [between]; omega
    have hin : ((value : Int) < least || (greatest : Int) < value) = false := by simp; omega
    rw [within, hin]
    simp [check, hmet]

theorem atLeast_check (field : String) (value least : Nat) :
    Bounds.atLeast field value least = check [Demand.atLeast least field value] := by
  by_cases h : value < least
  · have hmet : (Demand.atLeast least field value).met = false := by simpa [Demand.atLeast] using h
    rw [Bounds.atLeast, if_pos h]
    simp [check, hmet]
    rfl
  · have hmet : (Demand.atLeast least field value).met = true := by simpa [Demand.atLeast] using h
    rw [Bounds.atLeast, if_neg h]
    simp [check, hmet]

theorem path_check (field value : String) :
    path field value = check [nonempty field value, withoutNull field value] := by
  unfold path check
  by_cases he : value = ""
  · simp [he, nonempty, Demand.failure]
  · by_cases hn : '\x00' ∈ value.toList
    · simp [he, hn, nonempty, withoutNull, Demand.failure]
    · simp [he, hn, nonempty, withoutNull]

theorem baudRate_check (field : String) (value : Nat) :
    baudRate field value = check [between 300 115200 field value] :=
  within_check field value 300 115200

theorem readTimeout_check (field : String) (value : Nat) :
    readTimeout field value = check [between 1 60000 field value] :=
  within_check field value 1 60000

theorem responseCapacity_check (field : String) (value : Nat) :
    responseCapacity field value = check [Demand.atLeast 1 field value] :=
  atLeast_check field value 1

theorem inactivityTimeout_check (field : String) (value : Nat) :
    inactivityTimeout field value = check [between 0 60000 field value] :=
  within_check field value 0 60000

end Bounds

/-! ## What is asked of a file -/

namespace SettingsFile

/-- All values that are there are in range by themselves. -/
structure InRange (f : SettingsFile) : Prop where
  baudRate : ∀ n ∈ f.baudRate, 300 ≤ n ∧ n ≤ 115200
  readTimeout : ∀ n ∈ f.readTimeout, 1 ≤ n ∧ n ≤ 60000
  responseCapacity : ∀ n ∈ f.responseCapacity, 1 ≤ n
  inactivityTimeout : ∀ n ∈ f.inactivityTimeout, n ≤ 60000

def demands (f : SettingsFile) : List Demand :=
  (f.baudRate.map (between 300 115200 "serial.baud_rate")).toList ++
    ((f.readTimeout.map (between 1 60000 "serial.read_timeout_ms")).toList ++
      ((f.responseCapacity.map (Demand.atLeast 1 "console.response_capacity")).toList ++
        (f.inactivityTimeout.map (between 0 60000 "console.inactivity_timeout_ms")).toList))

theorem validate_check (f : SettingsFile) : f.validate = check f.demands := by
  unfold validate demands
  rw [check_append, check_append, check_append, check_toList _ (Bounds.baudRate_check _),
    check_toList _ (Bounds.readTimeout_check _), check_toList _ (Bounds.responseCapacity_check _),
    check_toList _ (Bounds.inactivityTimeout_check _)]

theorem demands_met_iff (f : SettingsFile) : (∀ d ∈ f.demands, d.met = true) ↔ f.InRange := by
  simp only [demands, List.forall_mem_append, forall_mem_toList, between_met, atLeast_met]
  constructor
  · rintro ⟨hbaud, htimeout, hcapacity, hsilence⟩
    exact ⟨hbaud, htimeout, hcapacity, fun n hn => (hsilence n hn).2⟩
  · rintro ⟨hbaud, htimeout, hcapacity, hsilence⟩
    exact ⟨hbaud, htimeout, hcapacity, fun n hn => ⟨Nat.zero_le n, hsilence n hn⟩⟩

end SettingsFile

/-! ## The layers -/

namespace Settings

/-- The value of a setting: the command line's, else the file's, else the
default. -/
def pick {α : Type} (override file : Option α) (default : α) : α :=
  (override.or file).getD default

theorem pick_of_forall {α : Type} {p : α → Prop} {override file : Option α} {default : α}
    (ho : ∀ a ∈ override, p a) (hf : ∀ a ∈ file, p a) (hd : p default) : p (pick override file default) := by
  cases override with
  | some a => exact ho a rfl
  | none =>
    cases file with
    | some a => exact hf a rfl
    | none => exact hd

section

variable (device : String) (file : Option SettingsFile) (o : Overrides)

def effectiveBaudRate : Nat :=
  pick o.baudRate (file.bind (·.baudRate)) 9600

def effectiveReadTimeout : Nat :=
  pick o.readTimeout (file.bind (·.readTimeout)) 1000

/-- Milliseconds of silence that end a reply; none at all if zero. -/
def effectiveInactivity : Nat :=
  pick o.inactivityTimeout (file.bind (·.inactivityTimeout)) 200

def effectiveCapacity : Nat :=
  (file.bind (·.responseCapacity)).getD 16384

/-- What becomes of the layers, value by value. -/
def effective : Settings where
  device := device
  baudRate := effectiveBaudRate file o
  readTimeout := effectiveReadTimeout file o
  run :=
    { readCount := o.readCount.getD (.times 1)
      outputFormat := pick o.outputFormat (file.bind (·.outputFormat)) .text
      closeLimit := 80
      console :=
        { policy := pick o.hexPolicy (file.bind (·.hexPolicy)) .strict
          inactivityTimeout := if effectiveInactivity file o = 0 then none else some (effectiveInactivity file o)
          responseCapacity := effectiveCapacity file } }

/-- All that is asked, in order: of the file by itself, then of the device
and of what became of the layers. -/
def demands : List Demand :=
  (file.elim [] (·.demands)) ++
    [nonempty "device" device, withoutNull "device" device,
      between 300 115200 "baud_rate" (effectiveBaudRate file o),
      between 1 60000 "read_timeout_ms" (effectiveReadTimeout file o),
      Demand.atLeast 1 "response_capacity" (effectiveCapacity file),
      between 0 60000 "inactivity_timeout_ms" (effectiveInactivity file o)]

theorem layered_eq : layered device file o = effective device file o := by
  have hsilence : (o.inactivityTimeout.map silence).getD
      (((file.bind (·.inactivityTimeout)).map silence).getD (some 200)) =
        if effectiveInactivity file o = 0 then none else some (effectiveInactivity file o) := by
    unfold effectiveInactivity pick
    cases o.inactivityTimeout <;> cases file.bind (·.inactivityTimeout) <;> rfl
  rw [effective, ← hsilence]
  simp only [effectiveBaudRate, effectiveReadTimeout, pick, Option.getD_or]
  cases file <;> rfl

/-- Milliseconds that are no bound at all ask nothing. -/
theorem inactivity_check (ms : Nat) :
    Bounds.ifPresent (Bounds.inactivityTimeout "inactivity_timeout_ms") (if ms = 0 then none else some ms) =
      check [between 0 60000 "inactivity_timeout_ms" ms] := by
  by_cases h : ms = 0
  · rw [if_pos h, h]
    rfl
  · rw [if_neg h]
    exact Bounds.inactivityTimeout_check _ ms

theorem resolve_eq : resolve device file o = (check (demands device file o)).map fun _ => effective device file o := by
  have hfile : Bounds.ifPresent SettingsFile.validate file = check (file.elim [] (·.demands)) := by
    cases file with
    | none => rfl
    | some f => exact f.validate_check
  have hvalidate : (effective device file o).validate =
      check [nonempty "device" device, withoutNull "device" device,
        between 300 115200 "baud_rate" (effectiveBaudRate file o),
        between 1 60000 "read_timeout_ms" (effectiveReadTimeout file o),
        Demand.atLeast 1 "response_capacity" (effectiveCapacity file),
        between 0 60000 "inactivity_timeout_ms" (effectiveInactivity file o)] := by
    unfold validate
    rw [Bounds.path_check, Bounds.baudRate_check, Bounds.readTimeout_check, Bounds.responseCapacity_check]
    simp only [effective, inactivity_check, ← check_append]
    rfl
  unfold resolve demands
  rw [hfile, layered_eq, check_append]
  simp only [hvalidate]
  cases check (file.elim [] (·.demands)) with
  | error e => rfl
  | ok _ =>
    simp only [bind, Except.bind, Except.map]
    rfl

/-- All that is asked of what becomes of the layers. -/
structure InRange : Prop where
  device : device ≠ "" ∧ '\x00' ∉ device.toList
  baudRate : 300 ≤ effectiveBaudRate file o ∧ effectiveBaudRate file o ≤ 115200
  readTimeout : 1 ≤ effectiveReadTimeout file o ∧ effectiveReadTimeout file o ≤ 60000
  inactivityTimeout : effectiveInactivity file o ≤ 60000

/-- The capacity is the file's own or the default, so it need not be asked
for again. -/
theorem demands_met_iff :
    (∀ d ∈ demands device file o, d.met = true) ↔ (∀ f ∈ file, f.InRange) ∧ InRange device file o := by
  have hfile : (∀ d ∈ file.elim [] (·.demands), d.met = true) ↔ ∀ f ∈ file, f.InRange := by
    cases file with
    | none => simp
    | some f => simpa using f.demands_met_iff
  have hcapacity : (∀ f ∈ file, f.InRange) → 1 ≤ effectiveCapacity file := fun h => by
    cases hc : file.bind (·.responseCapacity) with
    | none => simp [effectiveCapacity, hc]
    | some n =>
      obtain ⟨f, hf, hn⟩ := Option.bind_eq_some_iff.1 hc
      simpa [effectiveCapacity, hc] using (h f hf).responseCapacity n hn
  rw [demands, List.forall_mem_append, hfile]
  refine and_congr_right fun hf => ?_
  simp only [List.forall_mem_cons, between_met, atLeast_met, nonempty_met, withoutNull_met]
  constructor
  · rintro ⟨hempty, hnull, hbaud, htimeout, -, hsilent, -⟩
    exact ⟨⟨hempty, hnull⟩, hbaud, htimeout, hsilent.2⟩
  · rintro ⟨⟨hempty, hnull⟩, hbaud, htimeout, hsilent⟩
    exact ⟨hempty, hnull, hbaud, htimeout, hcapacity hf, ⟨Nat.zero_le _, hsilent⟩, by simp⟩

variable {device file o}

theorem resolve_ok_iff {s : Settings} : resolve device file o = .ok s ↔
    ((∀ f ∈ file, f.InRange) ∧ InRange device file o) ∧ s = effective device file o := by
  rw [resolve_eq, ← demands_met_iff, ← check_ok_iff]
  cases check (demands device file o) with
  | error e => simp [Except.map]
  | ok _ => simp [Except.map, eq_comm]

theorem resolve_error {e : Failure} (h : resolve device file o = .error e) :
    check (demands device file o) = .error e := by
  rw [resolve_eq] at h
  cases hc : check (demands device file o) with
  | error e' => simpa [hc, Except.map] using h
  | ok _ => simp [hc, Except.map] at h

/-- A file that is out of range by itself is complained of the same way
whatever else is said. -/
theorem resolve_bad_file {f : SettingsFile} (hf : ¬ f.InRange) :
    ∃ e, ∀ device o, resolve device (some f) o = .error e := by
  cases hc : check f.demands with
  | ok _ => exact absurd (f.demands_met_iff.1 (check_ok_iff.1 hc)) hf
  | error e => exact ⟨e, fun device o => by rw [resolve_eq, demands, check_append]; simp [hc]; rfl⟩

/-- A good file leaves nothing out of range by itself. -/
theorem inRange_of_file (hf : ∀ f ∈ file, f.InRange) (hempty : device ≠ "") (hnull : '\x00' ∉ device.toList) :
    InRange device file {} := by
  cases file with
  | none => exact ⟨⟨hempty, hnull⟩, by decide, by decide, by decide⟩
  | some f =>
    obtain ⟨hbaud, htimeout, -, hsilent⟩ := hf f rfl
    exact ⟨⟨hempty, hnull⟩, pick_of_forall (by simp) hbaud (by decide), pick_of_forall (by simp) htimeout (by decide),
      pick_of_forall (by simp) hsilent (by decide)⟩

end

/-- One thing that the command line can say. -/
inductive Override where
  | baudRate (n : Nat)
  | readTimeout (n : Nat)
  | hexPolicy (p : HexPolicy)
  | inactivityTimeout (n : Nat)
  | outputFormat (f : OutputFormat)
  | readCount (c : ReadCount)

namespace Override

/-- The command line with this said. -/
def say : Override → Overrides → Overrides
  | baudRate n, o => { o with baudRate := some n }
  | readTimeout n, o => { o with readTimeout := some n }
  | hexPolicy p, o => { o with hexPolicy := some p }
  | inactivityTimeout n, o => { o with inactivityTimeout := some n }
  | outputFormat f, o => { o with outputFormat := some f }
  | readCount c, o => { o with readCount := some c }

/-- Settings with its own field changed to what it says. -/
def change : Override → Settings → Settings
  | baudRate n, s => { s with baudRate := n }
  | readTimeout n, s => { s with readTimeout := n }
  | hexPolicy p, s => { s with run := { s.run with console := { s.run.console with policy := p } } }
  | inactivityTimeout n, s =>
    { s with
      run :=
        { s.run with
          console := { s.run.console with inactivityTimeout := if n = 0 then none else some n } } }
  | outputFormat f, s => { s with run := { s.run with outputFormat := f } }
  | readCount c, s => { s with run := { s.run with readCount := c } }

theorem effective_say (v : Override) (device : String) (file : Option SettingsFile) (o : Overrides) :
    effective device file (v.say o) = v.change (effective device file o) := by
  cases v <;> rfl

end Override

/-- **The layers of the settings.** Settings are resolved if and only if all
that the file says is in range by itself, and so is what becomes of the
layers; then they are just that. Otherwise the failure names the first demand
that is not met, in the order in which they are made. So no override makes up
for a bad file, an override of zero leaves no timeout, an override changes
its own field and no other, and a good file is enough with a device that can
be asked for. -/
theorem resolve_layers (device : String) (file : Option SettingsFile) (o : Overrides) :
    ((∃ s, resolve device file o = .ok s) ↔ (∀ f ∈ file, f.InRange) ∧ InRange device file o) ∧
      (∀ s, resolve device file o = .ok s → s = effective device file o) ∧
      (∀ e, resolve device file o = .error e → ∃ before d after, demands device file o = before ++ d :: after ∧
        (∀ b ∈ before, b.met = true) ∧ d.met = false ∧ e = .invalidSetting d.field d.value d.reason) ∧
      (∀ f, file = some f → ¬ f.InRange → ∃ e, ∀ device' o', resolve device' file o' = .error e) ∧
      (∀ s, resolve device file ((Override.inactivityTimeout 0).say o) = .ok s →
        s.run.console.inactivityTimeout = none) ∧
      (∀ (v : Override) s s', resolve device file o = .ok s → resolve device file (v.say o) = .ok s' →
        s' = v.change s) ∧
      ((∀ f ∈ file, f.InRange) → device ≠ "" → '\x00' ∉ device.toList →
        resolve device file {} = .ok (effective device file {})) := by
  refine ⟨⟨fun ⟨s, hs⟩ => (resolve_ok_iff.1 hs).1, fun h => ⟨_, resolve_ok_iff.2 ⟨h, rfl⟩⟩⟩,
    fun s hs => (resolve_ok_iff.1 hs).2, fun e he => check_error (resolve_error he), fun f hfile hf => ?_,
    fun s hs => ?_, fun v s s' hs hs' => ?_, fun hf hempty hnull => ?_⟩
  · subst hfile
    exact resolve_bad_file hf
  · rw [(resolve_ok_iff.1 hs).2]
    rfl
  · rw [(resolve_ok_iff.1 hs').2, (resolve_ok_iff.1 hs).2]
    exact v.effective_say device file o
  · exact resolve_ok_iff.2 ⟨⟨hf, inRange_of_file hf hempty hnull⟩, rfl⟩

/-- A file that slows the line down and sets no timeout. -/
def slow : SettingsFile where
  serial := some { baudRate := some 4800 }
  console := some { inactivityTimeout := some 0 }

/-- A file with a baud rate that no line has. -/
def tooFast : SettingsFile where
  serial := some { baudRate := some 1000000 }

theorem slow_layers :
    resolve "COM3" (some slow) {} =
        .ok { device := "COM3", baudRate := 4800, run := { console := { inactivityTimeout := none } } } ∧
      ∃ e, ∀ device o, resolve device (some tooFast) o = .error e := by
  have hslow : slow.InRange := by constructor <;> simp [slow, SettingsFile.baudRate, SettingsFile.readTimeout,
    SettingsFile.responseCapacity, SettingsFile.inactivityTimeout]
  have hfast : ¬ tooFast.InRange := fun h => absurd (h.baudRate 1000000 rfl) (by decide)
  have hgood := (resolve_layers "COM3" (some slow) {}).2.2.2.2.2.2
  have hbad := (resolve_layers "COM3" (some tooFast) {}).2.2.2.1
  exact ⟨hgood (by simpa using hslow) (by decide) (by decide), hbad tooFast rfl hfast⟩

end Settings
end MemsProbe
