/-
Runs that the user asks to stop.

`run_stops` says what the wish to stop does to a whole run, whenever it
comes; when it came is what an onlooker knows. Waking the ECU does not look
for it: over a line whose user never asks (`Undisturbed`) it comes to the
same. After that no exchange is begun once the user has asked; if that was
before the command began, the command offers nothing and its answer is known
(`stoppedAnswer`). The relays are the exception that is meant: one that was
switched on is held and switched off, whatever the user asks.
-/
import Mathlib
import MemsProbe.Proofs.Disconnected
import MemsProbe.Proofs.Onlooker
import MemsProbe.Proofs.Sinks
import MemsProbe.Proofs.Stopping

namespace MemsProbe

/-! ## A user who never asks -/

/-- The same line with a user who never asks to stop. -/
structure Undisturbed (σ : Type) where
  line : σ

instance {σ : Type} [Line σ] : Line (Undisturbed σ) where
  write offered s := ((Line.write offered s.line).1, ⟨(Line.write offered s.line).2⟩)
  read room s := ((Line.read room s.line).1, ⟨(Line.read room s.line).2⟩)
  setTimeout milliseconds s := ((Line.setTimeout milliseconds s.line).1, ⟨(Line.setTimeout milliseconds s.line).2⟩)
  cancelled _ := false
  idle s := ⟨Line.idle s.line⟩

/-- The two lines are in the same state, and the same calls were made. -/
structure SameLine {σ : Type} (l : Link σ) (m : Link (Undisturbed σ)) : Prop where
  line : l.line = m.line.line
  calls : l.calls = m.calls

/-- The client without the wishes of its user. -/
def Client.undisturbed {σ : Type} (c : Client σ) : Client (Undisturbed σ) where
  link := { line := ⟨c.link.line⟩, calls := c.link.calls, notes := c.link.notes }
  connected := c.connected

section

variable {σ : Type} [Line σ]

theorem write_undisturbed (offered : List UInt8) :
    Agree (SameLine (σ := σ)) (Link.write offered) (Link.write offered) := by
  rintro ⟨s, calls, notes⟩ ⟨⟨s'⟩, calls', notes'⟩ ⟨hline, hcalls⟩
  obtain rfl : s = s' := hline
  obtain rfl : calls = calls' := hcalls
  exact ⟨_, _, _, rfl, rfl, rfl, rfl⟩

theorem read_undisturbed (room : Nat) : Agree (SameLine (σ := σ)) (Link.read room) (Link.read room) := by
  rintro ⟨s, calls, notes⟩ ⟨⟨s'⟩, calls', notes'⟩ ⟨hline, hcalls⟩
  obtain rfl : s = s' := hline
  obtain rfl : calls = calls' := hcalls
  exact ⟨_, _, _, rfl, rfl, rfl, rfl⟩

theorem sameLine_simulates : Link.Simulates (SameLine (σ := σ)) where
  exchange command n := by
    have hwrite := write_undisturbed (σ := σ) [command]
    have hread := read_undisturbed (σ := σ)
    exact Agree.exchange hwrite (fun awaited => Agree.readOn hread [] _) n
  alike h hline hcalls hline' hcalls' :=
    ⟨by rw [hline, hline', h.line], by rw [hcalls, hcalls', h.calls]⟩

/-- Waking the ECU comes to the same for a user who never asks to stop. -/
theorem initLink_undisturbed {c c₁ : Client σ} {answer} (h : c.initLink = (answer, c₁)) :
    ∃ d₁, c.undisturbed.initLink = (answer, d₁) ∧ SameLine c₁.link d₁.link := by
  have htwins : Client.Twins SameLine c c.undisturbed := ⟨⟨rfl, rfl⟩, rfl⟩
  obtain ⟨answer', c', d₁, hc, hd, hafter⟩ := Client.initLink_agrees sameLine_simulates htwins
  obtain ⟨rfl, rfl⟩ := Prod.mk.inj (h.symm.trans hc)
  exact ⟨d₁, hd, hafter.links⟩

end

/-! ## Relays -/

section

variable {σ : Type} [Line σ]

theorem Link.exchange_calls {b : UInt8} {n : Nat} {l l' : Link σ} {answer} (h : l.exchange b n = (answer, l')) :
    ∃ taken heard, l'.calls.toList = l.calls.toList ++ .write [b] taken :: heard ∧ attempts heard = [] := by
  unfold Link.exchange at h
  split at h
  next hw =>
    obtain ⟨-, rfl⟩ := Prod.mk.inj h
    obtain ⟨taken, hw, -⟩ := Link.writeAll_one hw
    exact ⟨taken, [], Link.write_calls hw, rfl⟩
  next l₁ hw =>
    obtain ⟨taken, hw, -⟩ := Link.writeAll_one hw
    have hheard : ∃ hs, l₁.Hears hs l' := by
      split at h
      next hr =>
        obtain ⟨-, rfl⟩ := Prod.mk.inj h
        obtain ⟨hs, hh, -⟩ := Link.readEcho_hears hr
        exact ⟨hs, hh⟩
      next hr =>
        obtain ⟨hs, hh, -⟩ := Link.readEcho_hears hr
        obtain ⟨hs', hh', -⟩ := Link.readExactly_hears h
        exact ⟨hs ++ hs', hh.trans hh'⟩
    obtain ⟨hs, heard, hcalls, hunwritten, -⟩ := hheard
    refine ⟨taken, heard, ?_, hunwritten⟩
    rw [hcalls, Link.write_calls hw, List.append_assoc, List.singleton_append]

variable {c c₁ c' : Client σ}

theorem Client.testActuator_connected {actuator : Actuator} {readback : UInt8}
    (h : c.testActuator actuator = (.ok readback, c')) : c'.connected = true := by
  unfold testActuator at h
  split at h
  next => cases (Prod.mk.inj h).1
  next reply c₁ he =>
    obtain ⟨-, rfl⟩ := Prod.mk.inj h
    by_cases hc : c.connected = true
    · rw [exchange, if_pos hc] at he
      obtain ⟨-, rfl⟩ := Prod.mk.inj he
      exact hc
    · rw [exchange, if_neg hc] at he
      cases (Prod.mk.inj he).1

theorem Client.testActuator_calls {actuator : Actuator} {answer} (hc : c.connected = true)
    (h : c.testActuator actuator = (answer, c')) :
    ∃ taken heard, c'.link.calls.toList = c.link.calls.toList ++ .write [actuator.code] taken :: heard ∧
      attempts heard = [] := by
  obtain ⟨taken, heard, hcalls, hheard⟩ := Link.exchange_calls (Prod.eta (c.link.exchange actuator.code 1)).symm
  refine ⟨taken, heard, ?_, hheard⟩
  simp only [testActuator, exchange, hc, if_true] at h
  split at h
  all_goals
    next he =>
      obtain ⟨-, rfl⟩ := Prod.mk.inj h
      obtain ⟨-, rfl⟩ := Prod.mk.inj he
      exact hcalls

/-- A relay that was switched on is held and switched off. -/
theorem Actuation.toggleRelay_calls {relay : Relay} {readback : UInt8}
    (h : c.testActuator relay.on = (.ok readback, c₁)) :
    ∃ taken heard, (toggleRelay relay c).2.link.calls.toList =
      c₁.link.calls.toList ++ .pause relayHold :: .write [relay.off.code] taken :: heard ∧ attempts heard = [] := by
  have hconnected : c₁.connected = true := Client.testActuator_connected h
  have hc : (c₁.pause relayHold).connected = true := hconnected
  obtain ⟨taken, heard, hcalls, hheard⟩ :=
    Client.testActuator_calls hc (Prod.eta ((c₁.pause relayHold).testActuator relay.off)).symm
  refine ⟨taken, heard, ?_, hheard⟩
  have hlast : (toggleRelay relay c).2 = ((c₁.pause relayHold).testActuator relay.off).2 := by
    rw [toggleRelay, h]
    dsimp only
    split
    all_goals
      next hoff => rw [hoff]
  have hpause : (c₁.pause relayHold).link.calls.toList = c₁.link.calls.toList ++ [.pause relayHold] := by
    simp [Client.pause, Link.pause]
  rw [hlast, hcalls, hpause, List.append_assoc, List.singleton_append]

end

/-! ## A wish to stop that is there from the start -/

/-- What a command comes to if the user has asked to stop before it begins. -/
def Command.stoppedAnswer (options : RunOptions) : Command → Option (Outcome Unit)
  | .read | .readRaw =>
    some (if options.readCount = .times 0 then .failed (.commandFailed "read loop ran zero times")
      else .failed .cancelled)
  | .iacClose | .iacOpen => some (.failed .cancelled)
  | .interactive => some (.done ())
  | .readIac | .ptc | .fuelPump | .ac | .coil | .injectors => none

/-- A console can be opened over the link. -/
structure ConsoleSettings.Openable {σ : Type} [Line σ] (settings : ConsoleSettings) (l : Link σ) : Prop where
  allocates : settings.responseCapacity < ResponseBuffer.addressable
  sets : ∀ milliseconds, settings.inactivityTimeout = some milliseconds → (l.setTimeout milliseconds).1 = .ok ()

namespace Console

variable {σ ω : Type} [Line σ] [Sink ω]

theorem start_stopped (lasting : Line.Lasting σ) {settings : ConsoleSettings} {l : Link σ}
    (hc : l.cancelled = true) (ho : settings.Openable l) : ∃ c, start settings l = .ok c ∧ c.link.cancelled = true := by
  have hallocate : ResponseBuffer.allocate settings.responseCapacity =
      .ok ⟨#[], settings.responseCapacity, Nat.zero_le _⟩ := by
    rw [ResponseBuffer.allocate, if_pos ho.allocates]
  simp only [start, hallocate]
  cases hm : settings.inactivityTimeout with
  | none => exact ⟨_, rfl, hc⟩
  | some milliseconds =>
    have hstopped : (l.setTimeout milliseconds).2.cancelled = true := lasting.setTimeout milliseconds hc
    obtain ⟨l₁, hset⟩ : ∃ l₁, l.setTimeout milliseconds = (.ok (), l₁) :=
      ⟨_, Prod.ext (ho.sets milliseconds hm) rfl⟩
    rw [hset] at hstopped
    simp only [hset]
    exact ⟨_, rfl, hstopped⟩

/-- No line of the input is looked at. -/
theorem run_stopped (rounds : Nat) {c : Console σ} {out : ω} (hc : c.link.cancelled = true) (hw : Sink.Works out) :
    ∃ out', ∀ input, run rounds input c out = (.done {}, c.close {}, out') := by
  obtain ⟨out₁, hbanner, hw₁⟩ := hw.print bannerText
  obtain ⟨out₂, hprompt, -⟩ := hw₁.emit promptText
  refine ⟨out₂, fun input => ?_⟩
  simp only [run, hbanner, hprompt]
  cases Text.lines input with
  | nil => rfl
  | cons line lines => simp only [runLines, hc, if_true]

end Console

namespace Diagnostics

variable {σ ω α : Type} [Line σ] [Sink ω] {rounds : Nat}

theorem readLoop_stopped {fetch : Client σ → Except Failure α × Client σ} {render : α → String}
    {count : ReadCount} {c : Client σ} {out : ω} (hc : c.cancelled = true) (hpos : 0 < rounds) :
    (readLoop fetch render count rounds {} c out).1 =
      if count = .times 0 then .failed (.commandFailed "read loop ran zero times") else .failed .cancelled := by
  obtain ⟨rounds, rfl⟩ := Nat.exists_eq_succ_of_ne_zero (Nat.ne_of_gt hpos)
  cases count with
  | forever => simp [readLoop, isEnough, hc, finish, Tally.result, Outcome.ofExcept]
  | times n =>
    by_cases hn : n = 0
    · simp [readLoop, isEnough, hn, finish, Tally.result, Outcome.ofExcept]
    · simp [readLoop, isEnough, hn, hc, finish, Tally.result, Outcome.ofExcept]

theorem interactive_stopped (lasting : Line.Lasting σ) {settings : ConsoleSettings} {c : Client σ} {out : ω}
    (hc : c.cancelled = true) (hw : Sink.Works out) (ho : settings.Openable c.link) :
    ∃ c' out', ∀ input, interactive settings rounds input c out = (.done (), c', out') := by
  obtain ⟨console, hstart, hstopped⟩ := Console.start_stopped lasting hc ho
  obtain ⟨out', hrun⟩ := Console.run_stopped rounds hstopped hw
  refine ⟨{ c with link := (console.close {}).link }, out', fun input => ?_⟩
  simp only [interactive, hstart, hrun input]

/-- The answer of a command that is stopped before it begins, whatever the
input. -/
theorem execute_stopped (lasting : Line.Lasting σ) {options : RunOptions} {command : Command} {c : Client σ}
    {out : ω} {answer : Outcome Unit} (ha : command.stoppedAnswer options = some answer) (hc : c.cancelled = true)
    (hw : Sink.Works out) (hpos : 0 < rounds)
    (ho : command = .interactive → options.console.Openable c.link) :
    ∃ c' out', ∀ input, execute options rounds command input c out = (answer, c', out') := by
  cases command with
  | read =>
    obtain rfl := Option.some.inj ha
    refine ⟨(execute options rounds .read [] c out).2.1, (execute options rounds .read [] c out).2.2, fun _ => ?_⟩
    exact Prod.ext (readLoop_stopped hc hpos) rfl
  | readRaw =>
    obtain rfl := Option.some.inj ha
    refine ⟨(execute options rounds .readRaw [] c out).2.1, (execute options rounds .readRaw [] c out).2.2, fun _ => ?_⟩
    exact Prod.ext (readLoop_stopped hc hpos) rfl
  | iacClose =>
    obtain rfl := Option.some.inj ha
    obtain ⟨rounds, rfl⟩ := Nat.exists_eq_succ_of_ne_zero (Nat.ne_of_gt hpos)
    refine ⟨c, out, fun _ => ?_⟩
    simp only [execute, Actuation.closeIac, Actuation.closeFrom, hc, if_true, ofActuation]
  | iacOpen =>
    obtain rfl := Option.some.inj ha
    obtain ⟨rounds, rfl⟩ := Nat.exists_eq_succ_of_ne_zero (Nat.ne_of_gt hpos)
    refine ⟨c.note (.openCancelled 0), out, fun _ => ?_⟩
    simp only [execute, Actuation.openIac, Actuation.openFrom, hc, if_true, ofActuation]
  | interactive =>
    obtain rfl := Option.some.inj ha
    exact interactive_stopped lasting hc hw (ho rfl)
  | readIac | ptc | fuelPump | ac | coil | injectors => cases ha

/-- **The wish to stop begins no new exchange.** Suppose that the wish lasts,
and that the ECU woke.

- Waking it came to what it would have come to for a user who never asks.
- An onlooker makes no difference to the run. What it sees of it later on is
  the calls that are made, and with each of them whether the user had asked
  by the end of it; after one by the end of which he had, the command does no
  more than it may (`Command.Stops`). A command that heeds the wish offers
  nothing if it was there before the command began.
- In that case its answer is known, with a sink that works, and no input is
  looked at.
- A relay that was switched on is held and switched off all the same. -/
theorem run_stops (lasting : Line.Lasting σ) (options : RunOptions) (rounds : Nat) (command : Command)
    (input : List UInt8) (c c₁ : Client σ) (out : ω) {id : Vector UInt8 Client.identityLength}
    (woke : c.initLink = (.ok id, c₁)) :
    let plain := run options rounds command input c out
    let watched := run options rounds command input c.watched out
    (∃ d₁, c.undisturbed.initLink = (.ok id, d₁) ∧ SameLine c₁.link d₁.link) ∧
      (watched.1 = plain.1 ∧ watched.2.2 = plain.2.2 ∧ watched.2.1.link.Observes plain.2.1.link) ∧
      (∃ w₁ later, c.watched.initLink = (.ok id, w₁) ∧ w₁.link.Observes c₁.link ∧
        w₁.link.Logs later watched.2.1.link ∧ command.Keeps later ∧
        (c₁.cancelled = true → command.heedsStop = true → offers later = [])) ∧
      (∀ answer, command.stoppedAnswer options = some answer → c₁.cancelled = true → Sink.Works out → 0 < rounds →
        (command = .interactive → options.console.Openable c₁.link) →
        ∃ c' out', ∀ input, run options rounds command input c out = (answer, c', out')) ∧
      ∀ relay readback c₂ out₁, command.relay? = some relay →
        Sink.print (headerText id.toList) out = (.ok (), out₁) → c₁.testActuator relay.on = (.ok readback, c₂) →
        ∃ taken heard, plain.2.1.link.calls.toList =
          c₂.link.calls.toList ++ .pause Actuation.relayHold :: .write [relay.off.code] taken :: heard ∧
          attempts heard = [] := by
  refine ⟨initLink_undisturbed woke, run_watched lasting options rounds command input c out, ?_, ?_, ?_⟩
  · obtain ⟨answer, w₁, c', hwatched, hplain, hafter⟩ :=
      Client.initLink_agrees (observes_mirrors lasting).simulates c.watched_twins
    obtain ⟨rfl, rfl⟩ := Prod.mk.inj (woke.symm.trans hplain)
    obtain ⟨-, hline, hcalls, -⟩ := run_same options rounds command input c.watched out
    have hcarried : ∃ later,
        w₁.link.Logs later (wakeAndExecute options rounds command input c.watched out).2.1.link ∧
          command.Keeps later ∧ (w₁.cancelled = true → command.heedsStop = true → offers later = []) := by
      simp only [wakeAndExecute, hwatched]
      split
      · exact ⟨[], .refl _, by simp [Command.Keeps], fun _ _ => rfl⟩
      next out₁ _ => exact execute_logs (Prod.eta (execute options rounds command input w₁ out₁)).symm
    obtain ⟨later, hlogs, hkeeps, hstop⟩ := hcarried
    have hasked : w₁.cancelled = c₁.cancelled := hafter.links.asked
    rw [hasked] at hstop
    exact ⟨w₁, later, hwatched, hafter.links, hlogs.of_same hline hcalls, hkeeps, hstop⟩
  · intro answer ha hc hw hpos ho
    obtain ⟨out₁, hprint, hw₁⟩ := hw.print (headerText id.toList)
    obtain ⟨c', out', hexecute⟩ := execute_stopped lasting ha hc hw₁ hpos ho
    have hcarried : ∀ input, wakeAndExecute options rounds command input c out = (answer, c', out') := by
      intro input
      simp only [wakeAndExecute, woke, hprint, hexecute input]
    cases answer with
    | unfinished => exact ⟨c', out', fun input => by simp only [run, hcarried input]⟩
    | done _ | failed _ => exact ⟨c'.disconnect, out', fun input => by simp only [run, hcarried input]⟩
  · intro relay readback c₂ out₁ hrelay hprint hon
    obtain ⟨-, -, hcalls, -⟩ := run_same options rounds command input c out
    obtain ⟨taken, heard, htoggle, hheard⟩ := Actuation.toggleRelay_calls hon
    have hcarried : (wakeAndExecute options rounds command input c out).2.1.link.calls =
        (Actuation.toggleRelay relay c₁).2.link.calls := by
      simp only [wakeAndExecute, woke, hprint]
      cases command <;> cases hrelay <;>
        exact (ofActuation_same (Prod.eta (ofShortActuation out₁ (Actuation.toggleRelay _ c₁))).symm).2
    exact ⟨taken, heard, by rw [hcalls, hcarried, htoggle], hheard⟩

/-- An ECU that wakes and, asked for anything else, never falls silent. The
user asks to stop during the fifth read of that. -/
def babbling : Client ScriptedLine where
  link :=
    { line :=
        { replies := fun b =>
            if b = 0xD0 then [[.piece [0xD0, 1, 2, 3, 4]]]
            else if b = 0xCA ∨ b = 0x75 then [[.piece [b]]] else []
          endless := some 0x55
          stopAtRead := some 9 } }

/-- The same ECU, with a user who has asked to stop before the run. -/
def hasty : Client ScriptedLine :=
  { babbling with link := { babbling.link with line := babbling.link.line.stop } }

/-- The second of two bytes that are typed is never offered, and the reply to
the first is read no further. If the user has asked before, the console
closes whatever is typed. -/
theorem babbling_stops :
    (∃ w₁ later, babbling.watched.initLink = (.ok #v[1, 2, 3, 4], w₁) ∧
      w₁.link.Logs later
        (run {} 20 .interactive "80\n80\n".toUTF8.toList babbling.watched ({} : BoundedSink)).2.1.link ∧
      Command.interactive.Keeps later) ∧
      (attempts (run {} 20 .interactive "80\n80\n".toUTF8.toList babbling
        ({} : BoundedSink)).2.1.link.calls.toList).map (·.offered) = [[0xCA], [0x75], [0xD0], [0x80]] ∧
      ∃ c out, ∀ input, run {} 20 .interactive input hasty ({} : BoundedSink) = (.done (), c, out) := by
  have hwoke : babbling.initLink = (.ok #v[1, 2, 3, 4], babbling.initLink.2) := Prod.ext (by cbv) rfl
  obtain ⟨-, -, ⟨w₁, later, hw, -, hlogs, hkeeps, -⟩, -⟩ := run_stops ScriptedLine.lasting {} 20 .interactive
    "80\n80\n".toUTF8.toList babbling babbling.initLink.2 ({} : BoundedSink) hwoke
  have hhasty : hasty.initLink = (.ok #v[1, 2, 3, 4], hasty.initLink.2) := Prod.ext (by cbv) rfl
  have hopen : ({} : BoundedSink).Open := ⟨rfl, rfl⟩
  obtain ⟨-, -, -, hstopped, -⟩ := run_stops ScriptedLine.lasting {} 20 .interactive [] hasty hasty.initLink.2
    ({} : BoundedSink) hhasty
  have hasked : hasty.initLink.2.cancelled = true := by decide +kernel
  have hsets : hasty.initLink.2.link.line.timeoutFault = none := by decide +kernel
  have hopenable : ({} : ConsoleSettings).Openable hasty.initLink.2.link := by
    refine ⟨by decide, fun milliseconds _ => ?_⟩
    show (ScriptedLine.setTimeout milliseconds hasty.initLink.2.link.line).1 = .ok ()
    rw [ScriptedLine.setTimeout, hsets]
  have hclosed := hstopped (.done ()) rfl hasked hopen.works (by decide) fun _ => hopenable
  exact ⟨⟨w₁, later, hw, hlogs, hkeeps⟩, by decide +kernel, hclosed⟩

end Diagnostics

end MemsProbe
