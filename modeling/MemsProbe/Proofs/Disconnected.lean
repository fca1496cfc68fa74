/-
A client that is disconnected stays so, and does nothing to the line.

The guard stands in one place, before an exchange. The console goes around
it, since it uses the link itself; what keeps the line untouched all the
same is that a run wakes the ECU before anything else, and that a run that
ends always disconnects. `run_then_inert` puts this together: whatever a
first run came to, every later one fails before it has done anything.
-/
import MemsProbe.Diagnostics
import MemsProbe.Link.Scripted
import MemsProbe.Proofs.Errands

namespace MemsProbe

/-- The failure of a command to a client that is disconnected. -/
def Wire.refusal (command : UInt8) : Failure :=
  .commandFailed (Wire.text command ++ " on a disconnected link")

/-- What an operation of a disconnected client fails with. -/
def Operation.refusal : Operation → Failure
  | .initLink => .linkInit (Hex.byte Wire.wakeFirst ++ ": " ++ (Wire.refusal Wire.wakeFirst).message)
  | .readData | .readRaw => Wire.refusal Wire.requestFrame80
  | .readIacPosition => Wire.refusal Wire.requestIacPosition
  | .testActuator actuator => Wire.refusal actuator.code

/-- What comes of an errand that a disconnected client is sent on. -/
def Errand.refused : Errand → Except Failure (Option Finding)
  | .perform op => .error op.refusal
  | .disconnect => .ok none

namespace Client

variable {σ : Type} {c c' : Client σ}

theorem Alike.trans {c'' : Client σ} (h : Alike c c') (h' : Alike c' c'') : Alike c c'' :=
  ⟨h'.line.trans h.line, h'.calls.trans h.calls, h'.connected.trans h.connected⟩

theorem disconnect_of_disconnected (hc : c.connected = false) : c.disconnect = c := by
  simp [disconnect, hc]

theorem disconnect_line (c : Client σ) : c.disconnect.link.line = c.link.line := by
  unfold disconnect
  split <;> rfl

theorem disconnect_calls (c : Client σ) : c.disconnect.link.calls = c.link.calls := by
  unfold disconnect
  split <;> rfl

theorem disconnect_connected (c : Client σ) : c.disconnect.connected = false := by
  unfold disconnect
  by_cases hc : c.connected = true
  · simp [hc]
  · simp [hc]

variable [Line σ]

theorem exchange_disconnected (hc : c.connected = false) (command : UInt8) (n : Nat) :
    c.exchange command n = (.error (Wire.refusal command), c) := by
  simp [exchange, hc, Wire.refusal]

/-- A script is given up at its first command. -/
theorem Pursues.disconnected {r : Wire.Request} {script : List Wire.Request} {outcome : Pursued}
    (h : Pursues (r :: script) c outcome c') (hc : c.connected = false) :
    outcome = .error (r.command, Wire.refusal r.command) ∧ Alike c c' := by
  have hex := exchange_disconnected hc r.command r.length
  cases h with
  | failed he ha =>
    obtain ⟨heq, rfl⟩ := Prod.mk.inj (he.symm.trans hex)
    obtain rfl := Except.error.inj heq
    exact ⟨rfl, ha⟩
  | next he _ _ => cases he.symm.trans hex

theorem perform_disconnected {op : Operation} {answer} (hc : c.connected = false)
    (h : c.perform op = (answer, c')) : answer = .error op.refusal ∧ Alike c c' := by
  obtain ⟨outcome, hp, ht⟩ := perform_pursues h
  cases op <;>
    (obtain ⟨rfl, ha⟩ := hp.disconnected hc
     exact ⟨ht, ha⟩)

theorem attend_disconnected (hc : c.connected = false) (e : Errand) :
    (c.attend e).1 = e.refused ∧ Alike c (c.attend e).2 := by
  cases e with
  | perform op =>
    obtain ⟨hanswer, ha⟩ := perform_disconnected hc (Prod.eta (c.perform op)).symm
    exact ⟨congrArg (Except.map some) hanswer, ha⟩
  | disconnect =>
    have hsame : (c.attend .disconnect).2 = c := disconnect_of_disconnected hc
    rw [hsame]
    exact ⟨rfl, .refl c⟩

/-- Every errand but to disconnect fails, and none of them touches the line. -/
theorem attendAll_disconnected (hc : c.connected = false) (es : List Errand) :
    (c.attendAll es).1 = es.map Errand.refused ∧ Alike c (c.attendAll es).2 := by
  induction es generalizing c with
  | nil => exact ⟨rfl, .refl c⟩
  | cons e es ih =>
    obtain ⟨hanswer, ha⟩ := attend_disconnected hc e
    obtain ⟨hanswers, hrest⟩ := ih (ha.connected.trans hc)
    refine ⟨?_, ha.trans hrest⟩
    have hcons : (c.attendAll (e :: es)).1 = (c.attend e).1 :: ((c.attend e).2.attendAll es).1 := rfl
    rw [hcons, hanswer, hanswers, List.map_cons]

end Client

namespace Diagnostics

/-- What a run is asked to do, and what it writes to. -/
structure Assignment (ω : Type) where
  options : RunOptions
  rounds : Nat
  command : Command
  input : List UInt8
  out : ω

variable {σ ω : Type} [Line σ] [Sink ω]

/-- Runs one after the other with the same client: what each came to and left
of its sink, and the client after them. -/
def runAll : List (Assignment ω) → Client σ → List (Outcome Unit × ω) × Client σ
  | [], c => ([], c)
  | a :: later, c =>
    match run a.options a.rounds a.command a.input c a.out with
    | (answer, c, out) => ((answer, out) :: (runAll later c).1, (runAll later c).2)

theorem initLink_disconnected {c : Client σ} (hc : c.connected = false) :
    c.initLink = (.error Operation.initLink.refusal, c) := by
  simp only [Client.initLink, Client.wakeStep, Client.exchange_disconnected hc]
  rfl

/-- A run of a disconnected client fails and leaves everything as it was. -/
theorem run_disconnected {c : Client σ} (hc : c.connected = false) (a : Assignment ω) :
    run a.options a.rounds a.command a.input c a.out = (.failed Operation.initLink.refusal, c, a.out) := by
  simp only [run, wakeAndExecute, initLink_disconnected hc, Client.disconnect_of_disconnected hc]

/-- Disconnecting at the end changes neither the answer nor the line. -/
theorem run_same (options : RunOptions) (rounds : Nat) (command : Command) (input : List UInt8)
    (c : Client σ) (out : ω) :
    let carried := wakeAndExecute options rounds command input c out
    (run options rounds command input c out).1 = carried.1 ∧
      (run options rounds command input c out).2.1.link.line = carried.2.1.link.line ∧
      (run options rounds command input c out).2.1.link.calls = carried.2.1.link.calls ∧
      (run options rounds command input c out).2.2 = carried.2.2 := by
  dsimp only
  unfold run
  split
  next hw =>
    rw [hw]
    exact ⟨rfl, rfl, rfl, rfl⟩
  next ended d out' _ hw =>
    rw [hw]
    exact ⟨rfl, d.disconnect_line, d.disconnect_calls, rfl⟩

/-- A run that ends leaves the client disconnected. -/
theorem run_disconnects {options : RunOptions} {rounds : Nat} {command : Command} {input : List UInt8}
    {c : Client σ} {out : ω} (ended : (run options rounds command input c out).1 ≠ .unfinished) :
    (run options rounds command input c out).2.1.connected = false := by
  unfold run at ended ⊢
  split
  next hw =>
    simp only [hw] at ended
    exact absurd rfl ended
  next => exact Client.disconnect_connected _

theorem runAll_disconnected {c : Client σ} (hc : c.connected = false) (later : List (Assignment ω)) :
    runAll later c = (later.map fun a => (.failed Operation.initLink.refusal, a.out), c) := by
  induction later with
  | nil => rfl
  | cons a later ih => simp only [runAll, run_disconnected hc a, ih, List.map_cons]

/-- **Disconnected means inert.** Whatever a first run was asked to do, and
however it ended, its client is disconnected; every later run with the same
client fails to wake the ECU and leaves the client, and with it the line and
the record of its calls, as it was, and its own sink too. And a client that
has been disconnected refuses every operation without a call, and stays
disconnected. -/
theorem run_then_inert (options : RunOptions) (rounds : Nat) (command : Command) (input : List UInt8)
    (c : Client σ) (out : ω) (ended : (run options rounds command input c out).1 ≠ .unfinished) :
    (run options rounds command input c out).2.1.connected = false ∧
      (∀ later : List (Assignment ω), runAll later (run options rounds command input c out).2.1 =
        (later.map fun a => (.failed Operation.initLink.refusal, a.out),
          (run options rounds command input c out).2.1)) ∧
      ∀ (d : Client σ) (es : List Errand),
        (d.disconnect.attendAll es).1 = es.map Errand.refused ∧
          (d.disconnect.attendAll es).2.link.calls = d.link.calls ∧
          (d.disconnect.attendAll es).2.link.line = d.link.line ∧
          (d.disconnect.attendAll es).2.connected = false := by
  have hc := run_disconnects ended
  refine ⟨hc, runAll_disconnected hc, fun d es => ?_⟩
  have hd := d.disconnect_connected
  obtain ⟨hanswers, ha⟩ := Client.attendAll_disconnected hd es
  exact ⟨hanswers, ha.calls.trans d.disconnect_calls, ha.line.trans d.disconnect_line, ha.connected.trans hd⟩

/-- An ECU that wakes. -/
def wakeful : Client ScriptedLine where
  link :=
    { line :=
        { replies := fun b => if b = 0xD0 then [[.piece [0xD0, 1, 2, 3, 4]]] else [[.piece [b]]] } }

/-- When the user could be shown only five bytes, the console cannot be opened
later on either. -/
theorem wakeful_then_inert :
    (run {} 1 .interactive [] wakeful ({ limit := some 5 } : BoundedSink)).1 = .failed (.io "output closed") ∧
      (runAll [⟨{}, 1, .interactive, [0x38, 0x30, 10], ({} : BoundedSink)⟩]
          (run {} 1 .interactive [] wakeful ({ limit := some 5 } : BoundedSink)).2.1).1 =
        [(.failed Operation.initLink.refusal, {})] := by
  have hclosed : (run {} 1 .interactive [] wakeful ({ limit := some 5 } : BoundedSink)).1 =
      .failed (.io "output closed") := by decide +kernel
  obtain ⟨-, hlater, -⟩ := run_then_inert {} 1 .interactive [] wakeful ({ limit := some 5 } : BoundedSink)
    (by rw [hclosed]; nofun)
  exact ⟨hclosed, congrArg Prod.fst (hlater _)⟩

end Diagnostics
end MemsProbe
