/-
Parts of the program that come to an end.

A loop that nothing need ever stop is given a number of rounds, and gives up
when they are used up. It ends if some number is enough: from there on it
always comes to the same, and not to that (`Settles`). There is one lemma
for each part of the program with such a loop in it. What makes a loop end
is that each of its rounds takes something that there is only so much of:
the bytes that the line can still bring, the reads still to be made, the
lines still to be handled.
-/
import MemsProbe.Diagnostics
import MemsProbe.Proofs.Allowance
import MemsProbe.Proofs.Dialogue

namespace MemsProbe

/-- Some number of rounds is enough for an end, and with more rounds it is
the same; what is left then is as said. -/
def Settles {α κ : Type} (P : κ → Prop) (run : Nat → Outcome α × κ) : Prop :=
  ∃ enough answer k, answer ≠ .unfinished ∧ P k ∧ ∀ rounds, enough ≤ rounds → run rounds = (answer, k)

namespace Settles

variable {α κ : Type} {P : κ → Prop} {run next : Nat → Outcome α × κ}

theorem of_const (answer : Outcome α) (k : κ) (ha : answer ≠ .unfinished) (hk : P k)
    (hrun : ∀ rounds, run rounds = (answer, k)) : Settles P run :=
  ⟨0, answer, k, ha, hk, fun rounds _ => hrun rounds⟩

/-- A round of a loop. -/
theorem succ (h : Settles P next) (hrun : ∀ rounds, run (rounds + 1) = next rounds) : Settles P run := by
  obtain ⟨enough, answer, k, ha, hk, hnext⟩ := h
  refine ⟨enough + 1, answer, k, ha, hk, fun rounds hle => ?_⟩
  obtain ⟨rounds, rfl⟩ : ∃ n, rounds = n + 1 := ⟨rounds - 1, by omega⟩
  rw [hrun, hnext rounds (by omega)]

/-- A part that from some number of rounds on is another one. -/
theorem eventually (h : Settles P next) (enough : Nat) (hrun : ∀ rounds, enough ≤ rounds → run rounds = next rounds) :
    Settles P run := by
  obtain ⟨enough', answer, k, ha, hk, hnext⟩ := h
  refine ⟨max enough enough', answer, k, ha, hk, fun rounds hle => ?_⟩
  rw [hrun rounds (by omega), hnext rounds (by omega)]

/-- A loop that ends in its first round. -/
theorem now (answer : Outcome α) (k : κ) (ha : answer ≠ .unfinished) (hk : P k)
    (hrun : ∀ rounds, run (rounds + 1) = (answer, k)) : Settles P run :=
  succ (of_const answer k ha hk fun _ => rfl) hrun

theorem of_eq (h : Settles P next) (hrun : ∀ rounds, run rounds = next rounds) : Settles P run :=
  h.eventually 0 fun rounds _ => hrun rounds

/-- A part that ends once another one has. -/
theorem thence {β κ' : Type} {P' : κ' → Prop} {first : Nat → Outcome β × κ'} (h : Settles P' first)
    (hdone : ∀ b k', P' k' → ∃ answer k, answer ≠ .unfinished ∧ P k ∧
      ∀ rounds, first rounds = (.done b, k') → run rounds = (answer, k))
    (hfailed : ∀ e k', P' k' → ∃ answer k, answer ≠ .unfinished ∧ P k ∧
      ∀ rounds, first rounds = (.failed e, k') → run rounds = (answer, k)) : Settles P run := by
  obtain ⟨enough, answer', k', ha', hk', hfirst⟩ := h
  cases answer' with
  | unfinished => exact absurd rfl ha'
  | done b =>
    obtain ⟨answer, k, ha, hk, hrun⟩ := hdone b k' hk'
    exact ⟨enough, answer, k, ha, hk, fun rounds hle => hrun rounds (hfirst rounds hle)⟩
  | failed e =>
    obtain ⟨answer, k, ha, hk, hrun⟩ := hfailed e k' hk'
    exact ⟨enough, answer, k, ha, hk, fun rounds hle => hrun rounds (hfirst rounds hle)⟩

/-- What is left may be looked at in another way. -/
theorem map {κ' : Type} {P' : κ' → Prop} {first : Nat → Outcome α × κ'} (h : Settles P' first) (f : κ' → κ)
    (hf : ∀ k, P' k → P (f k)) (hrun : ∀ rounds, run rounds = ((first rounds).1, f (first rounds).2)) :
    Settles P run := by
  obtain ⟨enough, answer, k, ha, hk, hfirst⟩ := h
  exact ⟨enough, answer, f k, ha, hf k hk, fun rounds hle => by rw [hrun, hfirst rounds hle]⟩

end Settles

namespace Console

variable {σ ω : Type} [Line σ] [Sink ω] {bytes : List UInt8} {stop : Stop} {s t : σ} {l : Link σ}

/-! ## Replies -/

theorem discardRest_settles (h : Line.Delivers s bytes stop t) (hl : l.line = s) (discarded : Nat) :
    Settles (fun l' : Link σ => l'.line = t) fun rounds => discardRest rounds discarded l := by
  induction h generalizing l discarded with
  | asked hc =>
    exact .now (.failed .cancelled) l (by simp) hl fun rounds => by simp [discardRest, Link.cancelled, hl, hc]
  | silence hc hread =>
    refine .now (.done discarded) (l.read 1).2 (by simp) (by simp [Link.read, hl, hread]) fun rounds => ?_
    simp [discardRest, Link.cancelled, Link.read, hl, hc, hread]
  | @fault _ _ f hc hread =>
    refine .now (.failed f) (l.read 1).2 (by simp) (by simp [Link.read, hl, hread]) fun rounds => ?_
    simp [discardRest, Link.cancelled, Link.read, hl, hc, hread]
  | byte hc hread _ ih =>
    refine .succ (ih (l := (l.read 1).2) (by simp [Link.read, hl, hread]) (discarded + 1)) fun rounds => ?_
    simp [discardRest, Link.cancelled, Link.read, hl, hc, hread]

/-- Whether a reply goes over is settled when its rest is. -/
theorem overflow_settles (h : Line.Delivers l.line bytes stop t) (capacity : Nat) :
    Settles (fun l' : Link σ => l'.line = t) fun rounds => overflow rounds capacity l := by
  refine (discardRest_settles h rfl 1).thence (fun discarded l' hl' => ?_) fun e l' hl' => ?_
  · exact ⟨.failed (.overflow capacity discarded), l'.note (.replyExceeded capacity discarded), nofun, hl',
      fun rounds hrun => by simp [overflow, hrun]⟩
  · exact ⟨.failed e, l', nofun, hl', fun rounds hrun => by simp [overflow, hrun]⟩

theorem receive_settles (h : Line.Delivers s bytes stop t) (hl : l.line = s) (r : ResponseBuffer) :
    Settles (fun k : ResponseBuffer × Link σ => k.2.line = t) fun rounds => receive rounds r l := by
  induction h generalizing l r with
  | asked hc =>
    exact .now (.failed .cancelled) (r, l) (by simp) hl fun rounds => by simp [receive, Link.cancelled, hl, hc]
  | silence hc hread =>
    refine .now (.done r.size) (r, (l.read 1).2) (by simp) (by simp [Link.read, hl, hread]) fun rounds => ?_
    simp [receive, Link.cancelled, Link.read, hl, hc, hread]
  | @fault _ _ f hc hread =>
    refine .now (.failed f) (r, (l.read 1).2) (by simp) (by simp [Link.read, hl, hread]) fun rounds => ?_
    simp [receive, Link.cancelled, Link.read, hl, hc, hread]
  | @byte s t u b bytes stop hc hread hd ih =>
    have hcancelled : ¬ l.cancelled = true := by simp [Link.cancelled, hl, hc]
    obtain ⟨l₁, hr, hline⟩ := Link.read_of_line hl hread
    by_cases room : r.size < r.capacity
    · refine .succ (ih hline (r.add b room)) fun rounds => ?_
      rw [receive_byte hcancelled hr, dif_pos room]
    · rw [← hline] at hd
      refine .succ ((overflow_settles hd r.capacity).map (r, ·) (fun _ hl' => hl') fun _ => rfl) fun rounds => ?_
      rw [receive_byte hcancelled hr, dif_neg room]

/-! ## Lines of input -/

/-- The line of the console can bring at most so many bytes, and the console
takes what is typed to mean what this policy says. -/
structure Spares (offers : UInt8 → Prop) (bound : Nat) (policy : HexPolicy) (c : Console σ) : Prop where
  line : Line.AtMost offers bound c.link.line
  policy : c.policy = policy

variable {offers : UInt8 → Prop} {bound : Nat} {policy : HexPolicy} {c : Console σ} {b : UInt8} {out : ω}

theorem Spares.note (h : c.Spares offers bound policy) (n : Note) :
    Spares offers bound policy { c with link := c.link.note n } :=
  ⟨h.line, h.policy⟩

theorem Spares.awaitLine (h : c.Spares offers bound policy) : c.awaitLine.Spares offers bound policy :=
  ⟨h.line.brings (Line.Brings.refl.idle), h.policy⟩

theorem Spares.send (h : c.Spares offers bound policy) (ho : offers b) {answer} {c' : Console σ}
    (hs : c.send b = (answer, c')) : c'.Spares offers bound policy := by
  obtain ⟨taken, l', hw, hline, -, -, hp, -⟩ := send_writes hs
  exact ⟨by rw [hline]; exact h.line.brings (Link.write_brings ho hw), hp.trans h.policy⟩

theorem Spares.tell (h : c.Spares offers bound policy) {text : String} {failure : Option Failure} {told}
    {c' : Console σ} {out' : ω} (ht : c.tell b text failure out = (told, c', out')) :
    c'.Spares offers bound policy := by
  simp only [Console.tell] at ht
  split at ht
  · obtain ⟨-, rfl, -⟩ := by simpa using ht
    exact h
  · split at ht
    all_goals
      obtain ⟨-, rfl, -⟩ := by simpa using ht
      first
      | exact h
      | exact h.note _

theorem drain_settles (h : c.Spares offers bound policy) :
    Settles (Spares offers bound policy) fun rounds => c.drain rounds := by
  obtain ⟨bytes, stop, t, hd, -⟩ := h.line.stopsWithin
  refine (receive_settles hd rfl c.response).map (fun k => { c with link := k.2, response := k.1 }) (fun k hk => ?_)
    fun _ => rfl
  exact ⟨by rw [hk]; exact h.line.brings hd.brings, h.policy⟩

/-- What holds of the console however the sink is left. -/
abbrev Leaving (P : Console σ → Prop) (k : Console σ × ω) : Prop :=
  P k.1

theorem exchangeAndTell_settles (h : c.Spares offers bound policy) (ho : offers b) (out : ω) :
    Settles (Leaving (Spares offers bound policy)) fun rounds => c.exchangeAndTell rounds b out := by
  rcases hs : c.send b with ⟨cause | _, c₁⟩
  · have h₁ := (h.send ho hs).note (.writeFailed b cause)
    rcases hp : Sink.print writeFailedText out with ⟨e | _, out'⟩
    · exact .of_const (.failed e) (_, out') (by simp) h₁ fun rounds => by simp [exchangeAndTell, hs, hp]
    · exact .of_const (.done (.writeFailed b)) (_, out') (by simp) h₁ fun rounds => by simp [exchangeAndTell, hs, hp]
  · obtain ⟨enough, drained, c₂, ha, h₂, hrun⟩ := drain_settles (h.send ho hs)
    rcases ht : c₂.tell b (responseText c₂.response.bytes.toList drained.failure?) drained.failure? out with
      ⟨e | _, c₃, out'⟩
    · refine ⟨enough, .failed e, (c₃, out'), by simp, h₂.tell ht, fun rounds hle => ?_⟩
      cases drained with
      | unfinished => exact absurd rfl ha
      | done _ | failed _ => simp [exchangeAndTell, hs, hrun rounds hle, ht]
    · refine ⟨enough, .done (.exchanged b c₃.response.size), (c₃, out'), by simp, h₂.tell ht, fun rounds hle => ?_⟩
      cases drained with
      | unfinished => exact absurd rfl ha
      | done _ | failed _ => simp [exchangeAndTell, hs, hrun rounds hle, ht]

theorem command_settles (h : c.Spares offers bound policy) {text : String}
    (ho : ∀ b, CommandByte.parse policy text = .ok b → offers b) (out : ω) :
    Settles (Leaving (Spares offers bound policy)) fun rounds => c.command rounds text out := by
  obtain ⟨hline, rfl⟩ := h
  cases hb : CommandByte.parse c.policy text with
  | ok b => exact (exchangeAndTell_settles ⟨hline, rfl⟩ (ho b hb) out).of_eq fun rounds => by simp [command, hb]
  | error cause =>
    rcases hp : Sink.print (rejectionText cause) out with ⟨e | _, out'⟩
    · exact .of_const (.failed e) (c, out') (by simp) ⟨hline, rfl⟩ fun rounds => by simp [command, hb, hp]
    · exact .of_const (.done .rejected) (c, out') (by simp) ⟨hline, rfl⟩ fun rounds => by simp [command, hb, hp]

omit [Line σ] in
theorem prompt_settles {P : Console σ → Prop} {run : Nat → Outcome Step × Console σ × ω}
    (h : Settles (Leaving P) run) : Settles (Leaving P) fun rounds => prompt (run rounds) := by
  refine h.thence (fun s k hk => ?_) fun e k hk =>
    ⟨.failed e, k, by simp, hk, fun rounds hrun => by simp [hrun, prompt]⟩
  rcases he : Sink.emit promptText k.2 with ⟨e | _, out⟩
  · exact ⟨.failed e, (k.1, out), by simp, hk, fun rounds hrun => by simp [hrun, prompt, he]⟩
  · exact ⟨.done s, (k.1, out), by simp, hk, fun rounds hrun => by simp [hrun, prompt, he]⟩

/-- A line of input settles if the byte that it stands for may be offered. -/
theorem step_settles (h : c.Spares offers bound policy) {line : String}
    (ho : ∀ b, typedByte? policy line = some b → offers b) (out : ω) :
    Settles (Leaving (Spares offers bound policy)) fun rounds => c.step rounds line out := by
  by_cases hq : Text.trim line.toList = ['q'] ∨ Text.trim line.toList = ['q', 'u', 'i', 't']
  · exact .of_const (.done .quit) (c, out) (by simp) h fun rounds => by rw [step, if_pos hq]
  by_cases hb : (Text.trim line.toList).isEmpty = true
  · have hblank : Settles (Leaving (Spares offers bound policy)) fun _ => (.done Step.blank, c, out) :=
      .of_const (.done .blank) (c, out) (by simp) h fun _ => rfl
    exact (prompt_settles hblank).of_eq fun rounds => by rw [step, if_neg hq, if_pos hb]
  · have hparse : ∀ b, CommandByte.parse policy (String.ofList (Text.trim line.toList)) = .ok b → offers b :=
      fun b hp => ho b (by simp [typedByte?, hb, hp, Except.toOption])
    exact (prompt_settles (command_settles h hparse out)).of_eq fun rounds => by rw [step, if_neg hq, if_neg hb]

/-- Lines stand only for bytes that may be offered. -/
def Types (offers : UInt8 → Prop) (policy : HexPolicy) (lines : List (List UInt8)) : Prop :=
  ∀ line ∈ lines, ∀ text, Text.decode? line = some text → ∀ b, typedByte? policy text = some b → offers b

theorem runLines_settles {lines : List (List UInt8)} (ht : Types offers policy lines)
    (h : c.Spares offers bound policy) (summary : Summary) (out : ω) :
    Settles (Leaving (Spares offers bound policy)) fun rounds => runLines rounds lines summary c out := by
  induction lines generalizing c summary out with
  | nil => exact .of_const (.done summary) (c.close summary, out) (by simp) (h.note _) fun _ => rfl
  | cons line lines ih =>
    by_cases hc : c.link.cancelled = true
    · exact .of_const (.done summary) (c.close summary, out) (by simp) (h.note _) fun rounds => by simp [runLines, hc]
    cases htext : Text.decode? line with
    | none =>
      exact .of_const (.failed notText) (c.awaitLine, out) (by simp) h.awaitLine fun rounds => by
        simp [runLines, hc, htext]
    | some text =>
      obtain ⟨htyped, hlater⟩ := List.forall_mem_cons.1 ht
      obtain ⟨enough, answer, ⟨c₁, out₁⟩, ha, h₁, hrun⟩ := step_settles h.awaitLine (htyped text htext) out
      cases answer with
      | unfinished => exact absurd rfl ha
      | failed e =>
        exact ⟨enough, .failed e, (c₁, out₁), by simp, h₁, fun rounds hle => by
          simp [runLines, hc, htext, hrun rounds hle]⟩
      | done s =>
        by_cases hs : s = .quit
        · subst hs
          exact ⟨enough, .done summary, (c₁.close summary, out₁), by simp, h₁.note _, fun rounds hle => by
            simp [runLines, hc, htext, hrun rounds hle]⟩
        · refine (ih hlater h₁ (summary.add s) out₁).eventually enough fun rounds hle => ?_
          simp [runLines, hc, htext, hrun rounds hle]

theorem run_settles {input : List UInt8} (ht : Types offers policy (Text.lines input))
    (h : c.Spares offers bound policy) (out : ω) :
    Settles (Leaving (Spares offers bound policy)) fun rounds => c.run rounds input out := by
  rcases hp : Sink.print bannerText out with ⟨e | _, out₁⟩
  · exact .of_const (.failed e) (c, out₁) nofun h fun rounds => by simp [run, hp]
  rcases he : Sink.emit promptText out₁ with ⟨e | _, out₂⟩
  · exact .of_const (.failed e) (c, out₂) nofun h fun rounds => by simp [run, hp, he]
  · exact (runLines_settles ht h {} out₂).of_eq fun rounds => by simp [run, hp, he]

/-- A console is opened with the allowance of its link. -/
theorem start_spares {settings : ConsoleSettings} (hl : Line.AtMost offers bound l.line)
    (h : start settings l = .ok c) : c.Spares offers bound settings.policy := by
  unfold start at h
  split at h
  · cases h
  · split at h
    · cases h
      exact ⟨hl, rfl⟩
    next milliseconds _ =>
      split at h
      · cases h
      next l' hset =>
        cases h
        obtain rfl : (l.setTimeout milliseconds).2 = l' := by rw [hset]
        exact ⟨hl.brings (Line.Brings.refl.setTimeout milliseconds), rfl⟩

end Console

/-! ## Actuator tests -/

namespace Actuation

variable {σ : Type} [Line σ] {offers : UInt8 → Prop} {bound : Nat} {c : Client σ}

/-- A command to an actuator that goes well leaves less of the allowance. -/
theorem testActuator_less {actuator : Actuator} {readback : UInt8} {c' : Client σ} (ho : offers actuator.code)
    (hl : Line.AtMost offers bound c.link.line) (h : c.testActuator actuator = (.ok readback, c')) :
    2 ≤ bound ∧ Line.AtMost offers (bound - 2) c'.link.line := by
  obtain ⟨n, hb, hn⟩ := Client.testActuator_brings ho h
  obtain rfl := hn readback rfl
  exact hl.after hb

theorem closeFrom_settles (ho : offers Actuator.closeIac.code) (hl : Line.AtMost offers bound c.link.line)
    (remaining attempts : Nat) : Settles (fun _ => True) fun rounds => closeFrom rounds remaining attempts c := by
  induction bound using Nat.strongRecOn generalizing c remaining attempts with
  | _ bound ih =>
  by_cases hc : c.cancelled = true
  · exact .now (.failed .cancelled) c nofun trivial fun rounds => by simp [closeFrom, hc]
  rcases ht : c.testActuator .closeIac with ⟨e | readback, c'⟩
  · exact .now (.failed e) c' nofun trivial fun rounds => by simp [closeFrom, hc, ht]
  by_cases hdone : stillToWait remaining readback = 0
  · exact .now (.done ⟨.closeIac, attempts + 1, readback⟩) (c'.note (.closeFinished (attempts + 1))) nofun trivial
      fun rounds => by simp [closeFrom, hc, ht, hdone]
  · obtain ⟨hle, hless⟩ := testActuator_less ho hl ht
    refine .succ (ih (bound - 2) (by omega) hless (stillToWait remaining readback) (attempts + 1)) fun rounds => ?_
    simp [closeFrom, hc, ht, hdone]

theorem openFrom_settles (ho : offers Actuator.openIac.code) (hl : Line.AtMost offers bound c.link.line)
    (attempts : Nat) : Settles (fun _ => True) fun rounds => openFrom rounds attempts c := by
  induction bound using Nat.strongRecOn generalizing c attempts with
  | _ bound ih =>
  by_cases hc : c.cancelled = true
  · exact .now (.failed .cancelled) (c.note (.openCancelled attempts)) nofun trivial fun rounds => by
      simp [openFrom, hc]
  rcases ht : c.testActuator .openIac with ⟨e | readback, c'⟩
  · exact .now (.failed e) c' nofun trivial fun rounds => by simp [openFrom, hc, ht]
  by_cases hdone : openThreshold ≤ readback
  · exact .now (.done ⟨.openIac, attempts + 1, readback⟩) (c'.note (.openReached readback (attempts + 1))) nofun trivial
      fun rounds => by simp [openFrom, hc, ht, hdone]
  · obtain ⟨hle, hless⟩ := testActuator_less ho hl ht
    refine .succ (ih (bound - 2) (by omega) hless (attempts + 1)) fun rounds => ?_
    simp [openFrom, hc, ht, hdone]

end Actuation

/-! ## Runs -/

/-- The bytes that a command may offer once the ECU is awake. -/
def Command.Offers (options : RunOptions) (input : List UInt8) : Command → UInt8 → Prop
  | .read, b => b = 0x80
  | .readRaw, b => b = 0x80 ∨ b = 0x7D
  | .readIac, b => b = 0xFB
  | .ptc, b => b = 0x12 ∨ b = 0x02
  | .fuelPump, b => b = 0x11 ∨ b = 0x01
  | .ac, b => b = 0x13 ∨ b = 0x03
  | .iacClose, b => b = 0xFD
  | .iacOpen, b => b = 0xFE
  | .coil, b => b = 0xF8
  | .injectors, b => b = 0xF7
  | .interactive, b => ∃ line ∈ Text.lines input, ∃ text,
      Text.decode? line = some text ∧ typedByte? options.console.policy text = some b

namespace Diagnostics

variable {σ ω α : Type} [Line σ] [Sink ω] {bound : Nat}

omit [Line σ] [Sink ω] in
theorem finish_settles {run : Nat → Outcome Unit × Client σ × ω} (t : Tally) (c : Client σ) (out : ω)
    (hrun : ∀ rounds, run (rounds + 1) = finish t c out) : Settles (fun _ => True) run := by
  refine .now (.ofExcept t.result) (c.note (.readsSucceeded t.succeeded t.reads), out) ?_ trivial hrun
  cases t.result <;> nofun

theorem readLoop_settles (fetch : Client σ → Except Failure α × Client σ) (render : α → String) (n : Nat) (t : Tally)
    (c : Client σ) (out : ω) :
    Settles (fun _ => True) fun rounds => readLoop fetch render (.times n) rounds t c out := by
  generalize hleft : n - t.reads = left
  induction left generalizing t c out with
  | zero =>
    have henough : isEnough (.times n) t.reads = true := by simp [isEnough]; omega
    exact finish_settles t c out fun rounds => by simp [readLoop, henough]
  | succ left ih =>
    have henough : isEnough (.times n) t.reads = false := by simp [isEnough]; omega
    by_cases hc : c.cancelled = true
    · exact finish_settles { t with lastFailure := t.lastFailure.or (some .cancelled) }
        (c.note (.readLoopCancelled t.reads)) out fun rounds => by simp [readLoop, henough, hc]
    rcases hf : fetch c with ⟨e | a, c'⟩
    · have hless : n - (t.reads + 1) = left := by omega
      exact .succ (ih { t with reads := t.reads + 1, lastFailure := some e } (c'.note (.readFailed (t.reads + 1) e)) out
        hless) fun rounds => by simp [readLoop, henough, hc, hf]
    · rcases he : Sink.emit (render a) out with ⟨e | _, out'⟩
      · exact .now (.failed e) (c', out') nofun trivial fun rounds => by simp [readLoop, henough, hc, hf, he]
      · have hless : n - (t.reads + 1) = left := by omega
        exact .succ (ih { t with reads := t.reads + 1, succeeded := t.succeeded + 1 } c' out' hless) fun rounds => by
          simp [readLoop, henough, hc, hf, he]

omit [Line σ] [Sink ω] in
theorem ofActuation_settles {run : Nat → Outcome ActuationReport × Client σ} (h : Settles (fun _ => True) run)
    (out : ω) : Settles (fun _ => True) fun rounds => ofActuation out (run rounds) := by
  refine h.thence (fun r c _ => ?_) fun e c _ => ?_
  · exact ⟨.done (), (report r c, out), nofun, trivial, fun rounds hrun => congrArg (ofActuation out) hrun⟩
  · exact ⟨.failed e, (c, out), nofun, trivial, fun rounds hrun => congrArg (ofActuation out) hrun⟩

omit [Line σ] [Sink ω] in
theorem ofShortActuation_settles (run : Except Failure ActuationReport × Client σ) (out : ω) :
    Settles (fun _ => True) fun _ => ofShortActuation out run := by
  have hrun : Settles (fun _ => True) fun _ => (Outcome.ofExcept run.1, run.2) :=
    .of_const _ _ (by cases run.1 <;> nofun) trivial fun _ => rfl
  exact ofActuation_settles hrun out

theorem readPosition_settles (format : OutputFormat) (c : Client σ) (out : ω) :
    Settles (fun _ => True) fun _ => readPosition format c out := by
  refine .of_const (readPosition format c out).1 (readPosition format c out).2 ?_ trivial fun _ => rfl
  unfold readPosition
  split
  · nofun
  · split <;> nofun

theorem interactive_settles {options : RunOptions} {input : List UInt8} {c : Client σ}
    (hl : Line.AtMost (Command.interactive.Offers options input) bound c.link.line) (out : ω) :
    Settles (fun _ => True) fun rounds => interactive options.console rounds input c out := by
  cases hs : Console.start options.console c.link with
  | error failed =>
    exact .of_const (.failed failed.1) ({ c with link := failed.2 }, out) nofun trivial fun rounds => by
      simp [interactive, hs]
  | ok console =>
    have ht : Console.Types (Command.interactive.Offers options input) options.console.policy (Text.lines input) :=
      fun line hmem text htext b hb => ⟨line, hmem, text, htext, hb⟩
    refine (Console.run_settles ht (Console.start_spares hl hs) out).thence (fun _ k _ => ?_) fun e k _ => ?_
    · exact ⟨.done (), ({ c with link := k.1.link }, k.2), nofun, trivial, fun rounds hrun => by
        simp [interactive, hs, hrun]⟩
    · exact ⟨.failed e, ({ c with link := k.1.link }, k.2), nofun, trivial, fun rounds hrun => by
        simp [interactive, hs, hrun]⟩

theorem execute_settles {options : RunOptions} {command : Command} {input : List UInt8} {c : Client σ}
    (counted : command = .read ∨ command = .readRaw → options.readCount ≠ .forever)
    (hl : Line.AtMost (command.Offers options input) bound c.link.line) (out : ω) :
    Settles (fun _ => True) fun rounds => execute options rounds command input c out := by
  cases command with
  | read | readRaw =>
    cases hn : options.readCount with
    | forever => exact absurd hn (counted (by simp))
    | times n => simpa only [execute, hn] using readLoop_settles _ _ n {} c out
  | readIac => exact readPosition_settles options.outputFormat c out
  | ptc | fuelPump | ac | coil | injectors => exact ofShortActuation_settles _ out
  | iacClose =>
    have ho : Command.iacClose.Offers options input Actuator.closeIac.code := rfl
    exact ofActuation_settles (Actuation.closeFrom_settles ho hl _ 0) out
  | iacOpen =>
    have ho : Command.iacOpen.Offers options input Actuator.openIac.code := rfl
    exact ofActuation_settles (Actuation.openFrom_settles ho hl 0) out
  | interactive => exact interactive_settles hl out

theorem run_settles {options : RunOptions} {command : Command} {input : List UInt8} {c : Client σ}
    (counted : command = .read ∨ command = .readRaw → options.readCount ≠ .forever)
    (hl : ∀ id c', c.initLink = (.ok id, c') → Line.AtMost (command.Offers options input) bound c'.link.line)
    (out : ω) : Settles (fun _ => True) fun rounds => run options rounds command input c out := by
  have hcarried : Settles (fun _ => True) fun rounds => wakeAndExecute options rounds command input c out := by
    rcases hi : c.initLink with ⟨e | id, c₁⟩
    · exact .of_const (.failed e) (c₁, out) nofun trivial fun rounds => by simp [wakeAndExecute, hi]
    rcases hp : Sink.print (headerText id.toList) out with ⟨e | _, out₁⟩
    · exact .of_const (.failed e) (c₁, out₁) nofun trivial fun rounds => by simp [wakeAndExecute, hi, hp]
    · exact (execute_settles counted (hl id c₁ hi) out₁).of_eq fun rounds => by simp [wakeAndExecute, hi, hp]
  refine hcarried.thence (fun a k _ => ?_) fun e k _ => ?_
  · exact ⟨.done a, (k.1.disconnect, k.2), nofun, trivial, fun rounds hrun => by simp [run, hrun]⟩
  · exact ⟨.failed e, (k.1.disconnect, k.2), nofun, trivial, fun rounds hrun => by simp [run, hrun]⟩

end Diagnostics
end MemsProbe
