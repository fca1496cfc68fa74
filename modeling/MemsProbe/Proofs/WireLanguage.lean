/-
The language that a run speaks on the wire.

A run offers single bytes only. First come the three bytes that wake the
ECU, each offered only if the one before it was answered. Then, if all
three were and the header with the identity of the ECU could be written,
comes a word of the language of the command (`Says`); nothing else is ever
offered. `run_speaks` proves this of every run: for any line, which may
fail, stay silent or lie about what it took, for any sink, for any input,
and wherever the user asks to stop. A run that need not end is covered by
giving its loops any number of rounds.
-/
import MemsProbe.Diagnostics
import MemsProbe.Proofs.Dialogue
import MemsProbe.Proofs.Script

namespace MemsProbe

/-! ## The grammar -/

/-- A script followed some number of times, at most as often as asked for. -/
def Repeats (count : ReadCount) (script : List UInt8) (made : List Attempt) : Prop :=
  ∃ turns : List (List Attempt), made = turns.flatten ∧ (∀ t ∈ turns, Follows script t) ∧
    ∀ n, count = .times n → turns.length ≤ n

/-- The words of a command. -/
def Says (options : RunOptions) (input : List UInt8) (made : List Attempt) : Command → Prop
  | .read => Repeats options.readCount [0x80] made
  | .readRaw => Repeats options.readCount [0x80, 0x7D] made
  | .readIac => Follows [0xFB] made
  | .ptc => Follows [0x12, 0x02] made
  | .fuelPump => Follows [0x11, 0x01] made
  | .ac => Follows [0x13, 0x03] made
  | .iacClose => ∃ n, Follows (List.replicate n 0xFD) made
  | .iacOpen => ∃ n, Follows (List.replicate n 0xFE) made
  | .coil => Follows [0xF8] made
  | .injectors => Follows [0xF7] made
  | .interactive => Dialogue options.console.policy (Text.lines input) made

/-- The three attempts that wake the ECU were answered, the last one with
its identity. -/
def Woke (made : List Attempt) (id : List UInt8) : Prop :=
  ∃ first second third, made = [first, second, third] ∧
    first.Answered 0xCA [] ∧ second.Answered 0x75 [] ∧ third.Answered 0xD0 id

/-- What a run that writes to the given sink may make of the wire. -/
inductive Speaks {ω : Type} [Sink ω] (options : RunOptions) (command : Command) (input : List UInt8)
    (out : ω) : List Attempt → Prop
  /-- The ECU was not woken. -/
  | asleep : Follows [0xCA, 0x75, 0xD0] wake → (∀ id, ¬ Woke wake id) → Speaks options command input out wake
  /-- It was, but its identity could not be shown. -/
  | unshown : Woke wake identity → (Sink.print (Diagnostics.headerText identity) out).1 ≠ .ok () →
      Speaks options command input out wake
  /-- The command was carried out, as far as it went. -/
  | shown : Woke wake identity → (Sink.print (Diagnostics.headerText identity) out).1 = .ok () →
      Says options input word command → Speaks options command input out (wake ++ word)

theorem Repeats.single {count : ReadCount} {script : List UInt8} {made : List Attempt}
    (h : Repeats count script made) : ∀ a ∈ made, ∃ b, a.offered = [b] := by
  obtain ⟨turns, rfl, hf, -⟩ := h
  intro a ha
  obtain ⟨turn, ht, ha⟩ := List.mem_flatten.1 ha
  exact (hf turn ht).single a ha

theorem Says.single {options : RunOptions} {input : List UInt8} {made : List Attempt} {command : Command}
    (h : Says options input made command) : ∀ a ∈ made, ∃ b, a.offered = [b] := by
  cases command with
  | read | readRaw => exact Repeats.single h
  | readIac | ptc | fuelPump | ac | coil | injectors => exact Follows.single h
  | iacClose | iacOpen =>
    obtain ⟨n, hf⟩ := h
    exact hf.single
  | interactive => exact Dialogue.single h

theorem Woke.single {wake : List Attempt} {id : List UInt8} (h : Woke wake id) :
    ∀ a ∈ wake, ∃ b, a.offered = [b] := by
  obtain ⟨a₁, a₂, a₃, rfl, h₁, h₂, h₃⟩ := h
  simp [h₁.1, h₂.1, h₃.1]

/-- A run offers one byte at a time. -/
theorem Speaks.single {ω : Type} [Sink ω] {options : RunOptions} {command : Command} {input : List UInt8}
    {out : ω} {made : List Attempt} (h : Speaks options command input out made) :
    ∀ a ∈ made, ∃ b, a.offered = [b] := by
  cases h with
  | asleep hf _ => exact hf.single
  | unshown hw _ => exact hw.single
  | shown hw _ hs =>
    intro a ha
    rcases List.mem_append.1 ha with ha | ha
    · exact hw.single a ha
    · exact hs.single a ha

theorem Operation.Yields.woke {made : List Attempt} {replies : List Wire.Reply}
    {id : Vector UInt8 Client.identityLength} (h : initLink.Yields replies (.identity id))
    (ha : Answers made replies) : Woke made id.toList := by
  obtain ⟨hc, hr⟩ := h
  generalize hb : replies.map (·.bytes) = bytes at hr
  cases hr
  -- the replies are three, as their bytes are
  rcases ha with _ | ⟨h₁, _ | ⟨h₂, _ | ⟨h₃, _ | _⟩⟩⟩ <;>
    simp only [commands, script, List.map_cons, List.map_nil, List.cons.injEq, reduceCtorEq, and_false,
      and_true] at hc hb
  obtain ⟨hc₁, hc₂, hc₃⟩ := hc
  obtain ⟨hb₁, hb₂, hb₃⟩ := hb
  rw [hc₁, hb₁] at h₁
  rw [hc₂, hb₂] at h₂
  rw [hc₃, hb₃] at h₃
  exact ⟨_, _, _, rfl, h₁, h₂, h₃⟩

theorem Woke.answers {made : List Attempt} {id : List UInt8} (h : Woke made id) :
    ∃ replies, Answers made replies := by
  obtain ⟨a₁, a₂, a₃, rfl, h₁, h₂, h₃⟩ := h
  exact ⟨[⟨0xCA, [], rfl⟩, ⟨0x75, [], rfl⟩, ⟨0xD0, id, h₃.2.2.2⟩], .cons h₁ (.cons h₂ (.cons h₃ .nil))⟩

theorem Woke.unique {made : List Attempt} {id id' : List UInt8} (h : Woke made id) (h' : Woke made id') :
    id = id' := by
  obtain ⟨a₁, a₂, a₃, rfl, -, -, h₃⟩ := h
  obtain ⟨_, _, _, hmade, -, -, h₃'⟩ := h'
  obtain ⟨-, -, rfl⟩ := by simpa using hmade
  exact (List.cons.inj (h₃.2.2.1.symm.trans h₃'.2.2.1)).2

namespace Client

variable {σ : Type} [Line σ] {c c' : Client σ}

/-- The wake-up sequence follows its script, and gives the identity just when
it woke the ECU. -/
theorem initLink_made {answer} (hc : c.connected = true) (h : c.initLink = (answer, c')) :
    ∃ made, c.Makes made c' ∧ Follows [0xCA, 0x75, 0xD0] made ∧
      ∀ id, answer.map Vector.toList = .ok id ↔ Woke made id := by
  obtain ⟨outcome, hp, ht⟩ := initLink_pursues h
  obtain ⟨made, hm, hf, hr⟩ := hp.made hc
  refine ⟨made, hm, hf, fun id => ⟨fun hid => ?_, fun hwoke => ?_⟩⟩
  · cases answer with
    | error e => cases hid
    | ok v =>
      obtain rfl := Except.ok.inj hid
      cases outcome with
      | error failed => cases ht
      | ok replies =>
        obtain ⟨found, hfound, hy⟩ := ht
        obtain rfl := Except.ok.inj hfound
        exact hy.woke ((hr replies).1 rfl)
  · obtain ⟨replies, ha⟩ := hwoke.answers
    obtain rfl := (hr replies).2 ha
    obtain ⟨found, hfound, hy⟩ := ht
    cases answer with
    | error e => cases hfound
    | ok v =>
      obtain rfl := Except.ok.inj hfound
      rw [hwoke.unique (hy.woke ha)]
      rfl

end Client

namespace Diagnostics

variable {σ ω α : Type} {c c' : Client σ} {out out' : ω} {rounds : Nat} {input : List UInt8}
  {answer : Outcome Unit}

/-! ## Actuator tests -/

theorem ofActuation_performs {script : List UInt8} {run : Outcome ActuationReport × Client σ}
    (hp : c.Performs script run.2) (h : ofActuation out run = (answer, c', out')) : c.Performs script c' := by
  unfold ofActuation at h
  split at h
  · obtain ⟨-, rfl, -⟩ := by simpa using h
    exact hp.note _
  all_goals
    obtain ⟨-, rfl, -⟩ := by simpa using h
    exact hp

variable [Line σ]

theorem toggle_performs {relay : Relay} (hc : c.connected = true)
    (h : ofShortActuation out (Actuation.toggleRelay relay c) = (answer, c', out')) :
    c.Performs [relay.on.code, relay.off.code] c' :=
  ofActuation_performs (Actuation.toggleRelay_performs hc (Prod.eta (Actuation.toggleRelay relay c)).symm) h

theorem shot_performs {actuator : Actuator} (hc : c.connected = true)
    (h : ofShortActuation out (Actuation.singleShot actuator c) = (answer, c', out')) :
    c.Performs [actuator.code] c' :=
  ofActuation_performs (Actuation.singleShot_performs hc (Prod.eta (Actuation.singleShot actuator c)).symm) h

/-! ## Repeated reads -/

variable [Sink ω]

/-- Every read of the loop follows the script, and there are no more of them
than are still asked for. -/
theorem readLoop_repeats {fetch : Client σ → Except Failure α × Client σ} {render : α → String}
    {script : List UInt8} {count : ReadCount} {t : Tally}
    (hf : ∀ {c c' : Client σ} {a}, c.connected = true → fetch c = (a, c') → c.Performs script c')
    (hc : c.connected = true) (h : readLoop fetch render count rounds t c out = (answer, c', out')) :
    ∃ turns : List (List Attempt), c.Makes turns.flatten c' ∧ (∀ turn ∈ turns, Follows script turn) ∧
      ∀ n, count = .times n → t.reads ≤ n → t.reads + turns.length ≤ n := by
  induction rounds generalizing t c out with
  | zero =>
    obtain ⟨-, rfl, -⟩ := by simpa [readLoop] using h
    exact ⟨[], .refl _, by simp, by simp⟩
  | succ rounds ih =>
    unfold readLoop at h
    split at h
    · obtain ⟨-, rfl, -⟩ := by simpa [finish] using h
      exact ⟨[], (Client.Makes.refl c).note _, by simp, by simp⟩
    next hmore =>
    have hlt : ∀ n, count = .times n → t.reads < n := by
      rintro n rfl
      simpa [isEnough] using hmore
    -- one read more than the loop made after it
    have hcount : ∀ turns : List (List Attempt),
        (∀ n, count = .times n → t.reads + 1 ≤ n → t.reads + 1 + turns.length ≤ n) →
          ∀ n, count = .times n → t.reads ≤ n → t.reads + (turns.length + 1) ≤ n := by
      intro turns hle n hn _
      have hrest := hle n hn (hlt n hn)
      omega
    split at h
    · obtain ⟨-, rfl, -⟩ := by simpa [finish] using h
      exact ⟨[], ((Client.Makes.refl c).note _).note _, by simp, by simp⟩
    split at h
    next a c₁ hfetch =>
      obtain ⟨made, hm, hs⟩ := hf hc hfetch
      split at h
      · obtain ⟨-, rfl, -⟩ := by simpa using h
        exact ⟨[made], by simpa using hm, by simpa using hs, fun n hn _ => hlt n hn⟩
      · obtain ⟨turns, hm', hs', hle⟩ := ih (hm.connected hc) h
        exact ⟨made :: turns, hm.trans hm', by simpa using ⟨hs, hs'⟩, hcount turns hle⟩
    next e c₁ hfetch =>
      obtain ⟨made, hm, hs⟩ := hf hc hfetch
      have hm := hm.note (.readFailed (t.reads + 1) e)
      obtain ⟨turns, hm', hs', hle⟩ := ih (hm.connected hc) h
      exact ⟨made :: turns, hm.trans hm', by simpa using ⟨hs, hs'⟩, hcount turns hle⟩

theorem readLoop_says {fetch : Client σ → Except Failure α × Client σ} {render : α → String}
    {script : List UInt8} {count : ReadCount}
    (hf : ∀ {c c' : Client σ} {a}, c.connected = true → fetch c = (a, c') → c.Performs script c')
    (hc : c.connected = true) (h : readLoop fetch render count rounds {} c out = (answer, c', out')) :
    ∃ made, c.Makes made c' ∧ Repeats count script made := by
  obtain ⟨turns, hm, hs, hle⟩ := readLoop_repeats hf hc h
  exact ⟨_, hm, turns, rfl, hs, fun n hn => by simpa using hle n hn (Nat.zero_le n)⟩

/-! ## Commands -/

theorem readPosition_performs {format : OutputFormat} (hc : c.connected = true)
    (h : readPosition format c out = (answer, c', out')) : c.Performs [0xFB] c' := by
  unfold readPosition at h
  split at h
  next hr =>
    obtain ⟨-, rfl, -⟩ := by simpa using h
    exact Client.readIacPosition_performs hc hr
  next hr =>
    split at h
    all_goals
      obtain ⟨-, rfl, -⟩ := by simpa using h
      exact Client.readIacPosition_performs hc hr

theorem interactive_makes {settings : ConsoleSettings}
    (h : interactive settings rounds input c out = (answer, c', out')) :
    ∃ made, c.Makes made c' ∧ Dialogue settings.policy (Text.lines input) made := by
  unfold interactive at h
  split at h
  next e l hs =>
    obtain ⟨-, rfl, -⟩ := by simpa using h
    exact ⟨[], ⟨Console.start_error_makes hs, rfl⟩, .nil _ _⟩
  next console hs =>
    obtain ⟨hm, hp⟩ := Console.start_makes hs
    split at h
    all_goals
      next hr =>
        obtain ⟨-, rfl, -⟩ := by simpa using h
        obtain ⟨made, hm', hd⟩ := Console.run_makes hr
        rw [hp] at hd
        exact ⟨made, ⟨hm.trans hm'.1, rfl⟩, hd⟩

/-- Each command says a word of its own language. -/
theorem execute_says {options : RunOptions} {command : Command} (hc : c.connected = true)
    (h : execute options rounds command input c out = (answer, c', out')) :
    ∃ made, c.Makes made c' ∧ Says options input made command := by
  cases command with
  | read => exact readLoop_says (fun hc => Client.readData_performs hc) hc h
  | readRaw => exact readLoop_says (fun hc => Client.readRaw_performs hc) hc h
  | readIac => exact readPosition_performs hc h
  | ptc | fuelPump | ac => exact toggle_performs hc h
  | iacClose =>
    obtain ⟨n, hp⟩ := Actuation.closeFrom_performs hc (Prod.eta (Actuation.closeIac rounds options.closeLimit c)).symm
    obtain ⟨made, hm, hf⟩ := ofActuation_performs hp h
    exact ⟨made, hm, n, hf⟩
  | iacOpen =>
    obtain ⟨n, hp⟩ := Actuation.openFrom_performs hc (Prod.eta (Actuation.openIac rounds c)).symm
    obtain ⟨made, hm, hf⟩ := ofActuation_performs hp h
    exact ⟨made, hm, n, hf⟩
  | coil | injectors => exact shot_performs hc h
  | interactive => exact interactive_makes h

/-! ## A whole run -/

theorem wakeAndExecute_speaks {options : RunOptions} {command : Command} (hc : c.connected = true)
    (h : wakeAndExecute options rounds command input c out = (answer, c', out')) :
    ∃ made, c.Makes made c' ∧ Speaks options command input out made := by
  unfold wakeAndExecute at h
  split at h
  next e c₁ hi =>
    obtain ⟨-, rfl, -⟩ := by simpa using h
    obtain ⟨wake, hm, hf, hw⟩ := Client.initLink_made hc hi
    exact ⟨wake, hm, .asleep hf fun id hid => nomatch (hw id).2 hid⟩
  next id c₁ hi =>
    obtain ⟨wake, hm, -, hw⟩ := Client.initLink_made hc hi
    have hid : Woke wake id.toList := (hw _).1 rfl
    split at h
    next e out₁ hp =>
      obtain ⟨-, rfl, -⟩ := by simpa using h
      exact ⟨wake, hm, .unshown hid (by rw [hp]; nofun)⟩
    next out₁ hp =>
      obtain ⟨word, hm', hs⟩ := execute_says (hm.connected hc) h
      exact ⟨wake ++ word, hm.trans hm', .shown hid (by rw [hp]) hs⟩

theorem run_makes {options : RunOptions} {command : Command} (hc : c.connected = true)
    (h : run options rounds command input c out = (answer, c', out')) :
    ∃ made, c.link.Makes made c'.link ∧ Speaks options command input out made := by
  unfold run at h
  split at h
  next hw =>
    obtain ⟨-, rfl, -⟩ := by simpa using h
    obtain ⟨made, hm, hs⟩ := wakeAndExecute_speaks hc hw
    exact ⟨made, hm.1, hs⟩
  next hw =>
    obtain ⟨-, rfl, -⟩ := by simpa using h
    obtain ⟨made, hm, hs⟩ := wakeAndExecute_speaks hc hw
    exact ⟨made, hm.disconnect, hs⟩

/-- **Every run speaks the language of its command**: its writes offer one
byte each, and what they offer, with what is heard after each, is as the
grammar has it. -/
theorem run_speaks (options : RunOptions) (rounds : Nat) (command : Command) (input : List UInt8)
    (line : σ) (out : ω) :
    let wire := attempts (run options rounds command input { link := { line } } out).2.1.link.calls.toList
    (∀ a ∈ wire, ∃ b, a.offered = [b]) ∧ Speaks options command input out wire := by
  obtain ⟨made, hm, hs⟩ := run_makes rfl
    (Prod.eta (run options rounds command input ({ link := { line } } : Client σ) out)).symm
  have hwire := hm.attempts rfl
  dsimp only
  rw [hwire]
  exact ⟨hs.single, hs⟩

end Diagnostics
end MemsProbe
