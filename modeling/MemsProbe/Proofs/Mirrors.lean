/-
A run depends on its line only through what the line answers.

Lines that answer alike, whatever is asked of them and however long it goes
on, mirror each other (`Link.Mirrors`). Then no part of the program can tell
the one from the other: the answers are the same, the sinks are left the
same, and the lines still mirror each other. There is one lemma for each
part, down to a whole run (`run_mirrors`). Such a relation is how one line is
put in the place of another, as when a line is to be watched.
-/
import MemsProbe.Diagnostics
import MemsProbe.Proofs.Errands

namespace MemsProbe

/-- From related states, and with the same sink, the two come to the same,
leave the sink the same and the states related. -/
def AgreeShowing {α β γ ω : Type} (R : α → β → Prop) (run : α → ω → γ × α × ω) (run' : β → ω → γ × β × ω) :
    Prop :=
  ∀ ⦃a b⦄, R a b → ∀ out, ∃ answer a' b' out',
    run a out = (answer, a', out') ∧ run' b out = (answer, b', out') ∧ R a' b'

variable {σ τ : Type} [Line σ] [Line τ] {R : Link σ → Link τ → Prop}

/-- Whatever can be asked of a line is answered alike over related links, and
notes do not matter. -/
structure Link.Mirrors (R : Link σ → Link τ → Prop) : Prop where
  write (offered : List UInt8) : Agree R (Link.write offered) (Link.write offered)
  read (room : Nat) : Agree R (Link.read room) (Link.read room)
  setTimeout (milliseconds : Nat) : Agree R (Link.setTimeout milliseconds) (Link.setTimeout milliseconds)
  pause {l : Link σ} {m : Link τ} (milliseconds : Nat) : R l m → R (l.pause milliseconds) (m.pause milliseconds)
  idle {l : Link σ} {m : Link τ} : R l m → R l.idle m.idle
  cancelled {l : Link σ} {m : Link τ} : R l m → l.cancelled = m.cancelled
  alike {l l' : Link σ} {m m' : Link τ} : R l m → l'.line = l.line → l'.calls = l.calls →
    m'.line = m.line → m'.calls = m.calls → R l' m'

theorem Link.Mirrors.simulates (hR : Link.Mirrors R) : Link.Simulates R where
  exchange command n := Agree.exchange (hR.write [command]) (fun _ => Agree.readOn hR.read [] _) n
  alike := hR.alike

theorem Link.Mirrors.note (hR : Link.Mirrors R) {l : Link σ} {m : Link τ} (h : R l m) (n : Note) :
    R (l.note n) (m.note n) :=
  hR.alike h rfl rfl rfl rfl

/-! ## Operations -/

namespace Client

variable {c : Client σ} {d : Client τ}

theorem Twins.note (hR : Link.Mirrors R) (h : Twins R c d) (n : Note) : Twins R (c.note n) (d.note n) :=
  ⟨hR.note h.links n, h.connected⟩

theorem Twins.cancelled (hR : Link.Mirrors R) (h : Twins R c d) : c.cancelled = d.cancelled :=
  hR.cancelled h.links

theorem Twins.disconnect (hR : Link.Mirrors R) (h : Twins R c d) : Twins R c.disconnect d.disconnect := by
  obtain ⟨_, _, _, hc, hd, hafter⟩ := attend_agrees hR.simulates .disconnect h
  obtain ⟨-, rfl⟩ := Prod.mk.inj hc
  obtain ⟨-, rfl⟩ := Prod.mk.inj hd
  exact hafter

theorem map_answer_inj {α : Type} {found : α → Finding} (hfound : ∀ a b, found a = found b → a = b)
    {answer answer' : Except Failure α} (h : answer.map found = answer'.map found) : answer = answer' := by
  cases answer with
  | error e =>
    cases answer' with
    | error e' => rw [Except.error.inj h]
    | ok b => cases h
  | ok a =>
    cases answer' with
    | error e' => cases h
    | ok b => rw [hfound a b (Except.ok.inj h)]

/-- What an operation answers can be had back from what it finds out. -/
theorem agree_of_perform {α : Type} (hR : Link.Simulates R) (op : Operation) {found : α → Finding}
    (hfound : ∀ a b, found a = found b → a = b)
    {f : Client σ → Except Failure α × Client σ} {g : Client τ → Except Failure α × Client τ}
    (hf : ∀ c, Client.perform op c = ((f c).1.map found, (f c).2))
    (hg : ∀ d, Client.perform op d = ((g d).1.map found, (g d).2)) :
    Agree (Twins R) f g := by
  intro c d h
  obtain ⟨answer, c', d', hc, hd, hafter⟩ := perform_agrees hR op h
  rw [hf, Prod.mk.injEq] at hc
  rw [hg, Prod.mk.injEq] at hd
  obtain ⟨hanswer, rfl⟩ := hc
  obtain ⟨hanswer', rfl⟩ := hd
  have hsame : (g d).1 = (f c).1 := map_answer_inj hfound (hanswer'.trans hanswer.symm)
  exact ⟨(f c).1, (f c).2, (g d).2, rfl, Prod.ext hsame rfl, hafter⟩

theorem initLink_agrees (hR : Link.Simulates R) : Agree (Twins R) Client.initLink Client.initLink :=
  agree_of_perform hR .initLink (fun _ _ => Finding.identity.inj) (fun _ => rfl) fun _ => rfl

theorem readData_agrees (hR : Link.Simulates R) : Agree (Twins R) Client.readData Client.readData :=
  agree_of_perform hR .readData (fun _ _ => Finding.reading.inj) (fun _ => rfl) fun _ => rfl

theorem readRaw_agrees (hR : Link.Simulates R) : Agree (Twins R) Client.readRaw Client.readRaw :=
  agree_of_perform hR .readRaw (fun _ _ h => Prod.ext_iff.2 (Finding.frames.inj h)) (fun _ => rfl) fun _ => rfl

theorem readIacPosition_agrees (hR : Link.Simulates R) :
    Agree (Twins R) Client.readIacPosition Client.readIacPosition :=
  agree_of_perform hR .readIacPosition (fun _ _ => Finding.position.inj) (fun _ => rfl) fun _ => rfl

theorem testActuator_agrees (hR : Link.Simulates R) (actuator : Actuator) :
    Agree (Twins R) (Client.testActuator actuator) (Client.testActuator actuator) :=
  agree_of_perform hR (.testActuator actuator) (fun _ _ => Finding.readback.inj) (fun _ => rfl) fun _ => rfl

end Client

/-! ## Actuators -/

namespace Actuation

theorem singleShot_agrees (hR : Link.Mirrors R) (actuator : Actuator) :
    Agree (Client.Twins R) (singleShot actuator) (singleShot actuator) := by
  intro c d h
  obtain ⟨answer, c₁, d₁, hc, hd, h₁⟩ := Client.testActuator_agrees hR.simulates actuator h
  simp only [singleShot, hc, hd]
  cases answer <;> exact ⟨_, _, _, rfl, rfl, h₁⟩

/-- A toggle asks nothing of the line but its exchanges. -/
theorem toggleRelay_simulated (hR : Link.Simulates R)
    (hpause : ∀ {l : Link σ} {m : Link τ}, R l m → R (l.pause relayHold) (m.pause relayHold)) (relay : Relay) :
    Agree (Client.Twins R) (toggleRelay relay) (toggleRelay relay) := by
  intro c d h
  obtain ⟨answer, c₁, d₁, hc, hd, h₁⟩ := Client.testActuator_agrees hR relay.on h
  simp only [toggleRelay, hc, hd]
  cases answer with
  | error e => exact ⟨_, _, _, rfl, rfl, h₁⟩
  | ok _ =>
    have hheld : Client.Twins R (c₁.pause relayHold) (d₁.pause relayHold) := ⟨hpause h₁.links, h₁.connected⟩
    obtain ⟨answer, c₂, d₂, hc, hd, h₂⟩ := Client.testActuator_agrees hR relay.off hheld
    simp only [hc, hd]
    cases answer <;> exact ⟨_, _, _, rfl, rfl, h₂⟩

theorem toggleRelay_agrees (hR : Link.Mirrors R) (relay : Relay) :
    Agree (Client.Twins R) (toggleRelay relay) (toggleRelay relay) :=
  toggleRelay_simulated hR.simulates (hR.pause relayHold) relay

theorem closeFrom_agrees (hR : Link.Mirrors R) (rounds remaining attempts : Nat) :
    Agree (Client.Twins R) (closeFrom rounds remaining attempts) (closeFrom rounds remaining attempts) := by
  induction rounds generalizing remaining attempts with
  | zero => exact fun c d h => ⟨_, _, _, rfl, rfl, h⟩
  | succ rounds ih =>
    intro c d h
    simp only [closeFrom, h.cancelled hR]
    by_cases hcancelled : d.cancelled = true
    · simp only [hcancelled, if_true]
      exact ⟨_, _, _, rfl, rfl, h⟩
    · obtain ⟨answer, c₁, d₁, hc, hd, h₁⟩ := Client.testActuator_agrees hR.simulates .closeIac h
      simp only [hcancelled, hc, hd]
      cases answer with
      | error e => exact ⟨_, _, _, rfl, rfl, h₁⟩
      | ok readback =>
        by_cases hlast : stillToWait remaining readback = 0
        · simp only [hlast, if_true]
          exact ⟨_, _, _, rfl, rfl, h₁.note hR _⟩
        · simp only [hlast, if_false]
          exact ih _ _ h₁

theorem openFrom_agrees (hR : Link.Mirrors R) (rounds attempts : Nat) :
    Agree (Client.Twins R) (openFrom rounds attempts) (openFrom rounds attempts) := by
  induction rounds generalizing attempts with
  | zero => exact fun c d h => ⟨_, _, _, rfl, rfl, h⟩
  | succ rounds ih =>
    intro c d h
    simp only [openFrom, h.cancelled hR]
    by_cases hcancelled : d.cancelled = true
    · simp only [hcancelled, if_true]
      exact ⟨_, _, _, rfl, rfl, h.note hR _⟩
    · obtain ⟨answer, c₁, d₁, hc, hd, h₁⟩ := Client.testActuator_agrees hR.simulates .openIac h
      simp only [hcancelled, hc, hd]
      cases answer with
      | error e => exact ⟨_, _, _, rfl, rfl, h₁⟩
      | ok readback =>
        by_cases hlast : openThreshold ≤ readback
        · simp only [hlast, if_true]
          exact ⟨_, _, _, rfl, rfl, h₁.note hR _⟩
        · simp only [hlast, if_false]
          exact ih _ h₁

end Actuation

/-! ## The console -/

namespace Console

/-- The consoles are over related links, and are the same otherwise. -/
structure Twins (R : Link σ → Link τ → Prop) (c : Console σ) (d : Console τ) : Prop where
  links : R c.link d.link
  policy : c.policy = d.policy
  response : c.response = d.response

theorem start_agrees (hR : Link.Mirrors R) (settings : ConsoleSettings) {l : Link σ} {m : Link τ} (h : R l m) :
    (∃ c d, start settings l = .ok c ∧ start settings m = .ok d ∧ Twins R c d) ∨
      ∃ e l' m', start settings l = .error (e, l') ∧ start settings m = .error (e, m') ∧ R l' m' := by
  simp only [start]
  cases ResponseBuffer.allocate settings.responseCapacity with
  | error e => exact .inr ⟨_, _, _, rfl, rfl, h⟩
  | ok response =>
    cases settings.inactivityTimeout with
    | none => exact .inl ⟨_, _, rfl, rfl, h, rfl, rfl⟩
    | some milliseconds =>
      obtain ⟨answer, l₁, m₁, hl, hm, h₁⟩ := hR.setTimeout milliseconds h
      simp only [hl, hm]
      cases answer with
      | error e => exact .inr ⟨_, _, _, rfl, rfl, h₁⟩
      | ok _ => exact .inl ⟨_, _, rfl, rfl, h₁, rfl, rfl⟩

theorem send_agrees (hR : Link.Mirrors R) (b : UInt8) : Agree (Twins R) (Console.send b) (Console.send b) := by
  intro c d h
  obtain ⟨answer, l, m, hl, hm, hlinks⟩ := (hR.write [b]).writeAll h.links
  simp only [send, hl, hm]
  cases answer with
  | error e => exact ⟨_, _, _, rfl, rfl, hlinks, h.policy, congrArg ResponseBuffer.clear h.response⟩
  | ok _ => exact ⟨_, _, _, rfl, rfl, hR.note hlinks _, h.policy, congrArg ResponseBuffer.clear h.response⟩

theorem discardRest_agrees (hR : Link.Mirrors R) (rounds discarded : Nat) :
    Agree R (discardRest rounds discarded) (discardRest rounds discarded) := by
  induction rounds generalizing discarded with
  | zero => exact fun l m h => ⟨_, _, _, rfl, rfl, h⟩
  | succ rounds ih =>
    intro l m h
    simp only [discardRest, hR.cancelled h]
    by_cases hcancelled : m.cancelled = true
    · simp only [hcancelled, if_true]
      exact ⟨_, _, _, rfl, rfl, h⟩
    · obtain ⟨answer, l₁, m₁, hl, hm, h₁⟩ := hR.read 1 h
      simp only [hcancelled, hl, hm]
      obtain e | ⟨_ | ⟨b, more⟩, hroom⟩ := answer
      · exact ⟨_, _, _, rfl, rfl, h₁⟩
      · exact ⟨_, _, _, rfl, rfl, h₁⟩
      · exact ih _ h₁

theorem overflow_agrees (hR : Link.Mirrors R) (rounds capacity : Nat) :
    Agree R (overflow rounds capacity) (overflow rounds capacity) := by
  intro l m h
  obtain ⟨answer, l₁, m₁, hl, hm, h₁⟩ := discardRest_agrees hR rounds 1 h
  simp only [overflow, hl, hm]
  cases answer with
  | done discarded => exact ⟨_, _, _, rfl, rfl, hR.note h₁ _⟩
  | failed e => exact ⟨_, _, _, rfl, rfl, h₁⟩
  | unfinished => exact ⟨_, _, _, rfl, rfl, h₁⟩

theorem receive_agrees (hR : Link.Mirrors R) (rounds : Nat) (r : ResponseBuffer) {l : Link σ} {m : Link τ}
    (h : R l m) : ∃ answer r' l' m', receive rounds r l = (answer, r', l') ∧ receive rounds r m = (answer, r', m') ∧
      R l' m' := by
  induction rounds generalizing r l m with
  | zero => exact ⟨_, _, _, _, rfl, rfl, h⟩
  | succ rounds ih =>
    simp only [receive, hR.cancelled h]
    by_cases hcancelled : m.cancelled = true
    · simp only [hcancelled, if_true]
      exact ⟨_, _, _, _, rfl, rfl, h⟩
    · obtain ⟨answer, l₁, m₁, hl, hm, h₁⟩ := hR.read 1 h
      simp only [hcancelled, hl, hm]
      obtain e | ⟨_ | ⟨b, more⟩, hroom⟩ := answer
      · exact ⟨_, _, _, _, rfl, rfl, h₁⟩
      · exact ⟨_, _, _, _, rfl, rfl, h₁⟩
      · by_cases hfull : r.isFull = true
        · obtain ⟨answer, l₂, m₂, hl, hm, h₂⟩ := overflow_agrees hR rounds r.capacity h₁
          simp only [hfull, hl, hm]
          exact ⟨_, _, _, _, rfl, rfl, h₂⟩
        · obtain ⟨room, hpush⟩ := ResponseBuffer.push_of_not_isFull b hfull
          simp only [hfull, hpush]
          exact ih _ h₁

theorem drain_agrees (hR : Link.Mirrors R) (rounds : Nat) :
    Agree (Twins R) (Console.drain rounds) (Console.drain rounds) := by
  intro c d h
  obtain ⟨answer, r, l, m, hl, hm, hlinks⟩ := receive_agrees hR rounds d.response h.links
  simp only [drain, h.response, hl, hm]
  exact ⟨_, _, _, rfl, rfl, hlinks, h.policy, rfl⟩

variable {ω : Type} [Sink ω]

theorem tell_agrees (hR : Link.Mirrors R) (b : UInt8) (text : String) (failure : Option Failure) :
    AgreeShowing (Twins R) (tell (ω := ω) b text failure) (tell b text failure) := by
  intro c d h out
  simp only [tell]
  obtain ⟨_ | _, out₁⟩ := Sink.print text out
  · exact ⟨_, _, _, _, rfl, rfl, h⟩
  · cases failure with
    | none => exact ⟨_, _, _, _, rfl, rfl, h⟩
    | some cause => exact ⟨_, _, _, _, rfl, rfl, hR.note h.links _, h.policy, h.response⟩

theorem exchangeAndTell_agrees (hR : Link.Mirrors R) (rounds : Nat) (b : UInt8) :
    AgreeShowing (Twins R) (exchangeAndTell (ω := ω) rounds b) (exchangeAndTell rounds b) := by
  intro c d h out
  obtain ⟨sent, c₁, d₁, hc, hd, h₁⟩ := send_agrees hR b h
  simp only [exchangeAndTell, hc, hd]
  cases sent with
  | error cause =>
    have hnoted : Twins R { c₁ with link := c₁.link.note (.writeFailed b cause) }
        { d₁ with link := d₁.link.note (.writeFailed b cause) } :=
      ⟨hR.note h₁.links _, h₁.policy, h₁.response⟩
    obtain ⟨_ | _, out₁⟩ := Sink.print writeFailedText out <;> exact ⟨_, _, _, _, rfl, rfl, hnoted⟩
  | ok _ =>
    obtain ⟨drained, c₂, d₂, hc, hd, h₂⟩ := drain_agrees hR rounds h₁
    have htell := tell_agrees hR b (responseText d₂.response.bytes.toList drained.failure?) drained.failure? h₂ out
    obtain ⟨told, c₃, d₃, out₁, hc₃, hd₃, h₃⟩ := htell
    simp only [hc, hd]
    cases drained with
    | unfinished => exact ⟨_, _, _, _, rfl, rfl, h₂⟩
    | done _ | failed _ =>
      simp only [h₂.response, hc₃, hd₃]
      cases told with
      | error e => exact ⟨_, _, _, _, rfl, rfl, h₃⟩
      | ok _ => exact ⟨_, _, _, _, by simp only [h₃.response], rfl, h₃⟩

omit [Line σ] [Line τ] in
theorem prompt_agrees {run : Console σ → ω → Outcome Step × Console σ × ω}
    {run' : Console τ → ω → Outcome Step × Console τ × ω} (h : AgreeShowing (Twins R) run run') :
    AgreeShowing (Twins R) (fun c out => prompt (run c out)) (fun d out => prompt (run' d out)) := by
  intro c d hcd out
  obtain ⟨answer, c₁, d₁, out₁, hc, hd, h₁⟩ := h hcd out
  simp only [hc, hd]
  cases answer with
  | failed e => exact ⟨_, _, _, _, rfl, rfl, h₁⟩
  | unfinished => exact ⟨_, _, _, _, rfl, rfl, h₁⟩
  | done step =>
    simp only [prompt]
    obtain ⟨_ | _, out₂⟩ := Sink.emit promptText out₁ <;> exact ⟨_, _, _, _, rfl, rfl, h₁⟩

theorem command_agrees (hR : Link.Mirrors R) (rounds : Nat) (text : String) :
    AgreeShowing (Twins R) (command (ω := ω) rounds text) (command rounds text) := by
  intro c d h out
  simp only [command, h.policy]
  cases CommandByte.parse d.policy text with
  | ok b => exact exchangeAndTell_agrees hR rounds b h out
  | error cause =>
    dsimp only
    obtain ⟨_ | _, out₁⟩ := Sink.print (rejectionText cause) out <;> exact ⟨_, _, _, _, rfl, rfl, h⟩

theorem step_agrees (hR : Link.Mirrors R) (rounds : Nat) (line : String) :
    AgreeShowing (Twins R) (step (ω := ω) rounds line) (step rounds line) := by
  intro c d h out
  simp only [step]
  split
  · exact ⟨_, _, _, _, rfl, rfl, h⟩
  split
  · exact prompt_agrees (fun _ _ h _ => ⟨_, _, _, _, rfl, rfl, h⟩) h out
  · exact prompt_agrees (command_agrees hR rounds _) h out

theorem runLines_agrees (hR : Link.Mirrors R) (rounds : Nat) (lines : List (List UInt8)) (summary : Summary) :
    AgreeShowing (Twins R) (runLines (ω := ω) rounds lines summary) (runLines rounds lines summary) := by
  have hclose : ∀ {c : Console σ} {d : Console τ} (summary : Summary), Twins R c d →
      Twins R (c.close summary) (d.close summary) :=
    fun _ h => ⟨hR.note h.links _, h.policy, h.response⟩
  induction lines generalizing summary with
  | nil => exact fun c d h out => ⟨_, _, _, _, rfl, rfl, hclose summary h⟩
  | cons line lines ih =>
    intro c d h out
    simp only [runLines, hR.cancelled h.links]
    by_cases hcancelled : d.link.cancelled = true
    · simp only [hcancelled, if_true]
      exact ⟨_, _, _, _, rfl, rfl, hclose summary h⟩
    · have hawait : Twins R c.awaitLine d.awaitLine := ⟨hR.idle h.links, h.policy, h.response⟩
      simp only [hcancelled]
      cases Text.decode? line with
      | none => exact ⟨_, _, _, _, rfl, rfl, hawait⟩
      | some text =>
        obtain ⟨answer, c₁, d₁, out₁, hc, hd, h₁⟩ := step_agrees hR rounds text hawait out
        simp only [hc, hd]
        cases answer with
        | failed e => exact ⟨_, _, _, _, rfl, rfl, h₁⟩
        | unfinished => exact ⟨_, _, _, _, rfl, rfl, h₁⟩
        | done step =>
          cases step with
          | quit => exact ⟨_, _, _, _, rfl, rfl, hclose summary h₁⟩
          | blank | rejected | writeFailed _ | exchanged _ _ => exact ih _ h₁ out₁

theorem run_agrees (hR : Link.Mirrors R) (rounds : Nat) (input : List UInt8) :
    AgreeShowing (Twins R) (run (ω := ω) rounds input) (run rounds input) := by
  intro c d h out
  simp only [run]
  obtain ⟨_ | _, out₁⟩ := Sink.print bannerText out
  · exact ⟨_, _, _, _, rfl, rfl, h⟩
  dsimp only
  obtain ⟨_ | _, out₂⟩ := Sink.emit promptText out₁
  · exact ⟨_, _, _, _, rfl, rfl, h⟩
  · exact runLines_agrees hR rounds (Text.lines input) {} h out₂

end Console

/-! ## Commands and runs -/

namespace Diagnostics

variable {ω α : Type} [Sink ω]

theorem readLoop_agrees (hR : Link.Mirrors R) {fetch : Client σ → Except Failure α × Client σ}
    {fetch' : Client τ → Except Failure α × Client τ} (hfetch : Agree (Client.Twins R) fetch fetch')
    (render : α → String) (count : ReadCount) (rounds : Nat) (t : Tally) :
    AgreeShowing (Client.Twins R) (readLoop (ω := ω) fetch render count rounds t)
      (readLoop fetch' render count rounds t) := by
  have hfinish : ∀ {c : Client σ} {d : Client τ} (t : Tally) (out : ω), Client.Twins R c d →
      ∃ answer c' d' out', finish t c out = (answer, c', out') ∧ finish t d out = (answer, d', out') ∧
        Client.Twins R c' d' :=
    fun t out h => ⟨_, _, _, _, rfl, rfl, h.note hR _⟩
  induction rounds generalizing t with
  | zero => exact fun c d h out => ⟨_, _, _, _, rfl, rfl, h⟩
  | succ rounds ih =>
    intro c d h out
    simp only [readLoop, h.cancelled hR]
    by_cases henough : isEnough count t.reads = true
    · simp only [henough, if_true]
      exact hfinish t out h
    by_cases hcancelled : d.cancelled = true
    · simp only [henough, hcancelled, if_true]
      exact hfinish _ out (h.note hR _)
    obtain ⟨answer, c₁, d₁, hc, hd, h₁⟩ := hfetch h
    simp only [henough, hcancelled, hc, hd]
    cases answer with
    | error e => exact ih _ (h₁.note hR _) out
    | ok a =>
      dsimp only
      obtain ⟨_ | _, out₁⟩ := Sink.emit (render a) out
      · exact ⟨_, _, _, _, rfl, rfl, h₁⟩
      · exact ih _ h₁ out₁

theorem readPosition_agrees (hR : Link.Mirrors R) (format : OutputFormat) :
    AgreeShowing (Client.Twins R) (readPosition (ω := ω) format) (readPosition format) := by
  intro c d h out
  obtain ⟨answer, c₁, d₁, hc, hd, h₁⟩ := Client.readIacPosition_agrees hR.simulates h
  simp only [readPosition, hc, hd]
  cases answer with
  | error e => exact ⟨_, _, _, _, rfl, rfl, h₁⟩
  | ok position =>
    dsimp only
    obtain ⟨_ | _, out₁⟩ := Sink.print (positionText format position) out <;> exact ⟨_, _, _, _, rfl, rfl, h₁⟩

omit [Sink ω] in
theorem ofActuation_agrees (hR : Link.Mirrors R) {test : Client σ → Outcome ActuationReport × Client σ}
    {test' : Client τ → Outcome ActuationReport × Client τ} (h : Agree (Client.Twins R) test test') :
    AgreeShowing (Client.Twins R) (fun c (out : ω) => ofActuation out (test c))
      (fun d out => ofActuation out (test' d)) := by
  intro c d hcd out
  obtain ⟨answer, c₁, d₁, hc, hd, h₁⟩ := h hcd
  simp only [hc, hd]
  cases answer with
  | done r => exact ⟨_, _, _, _, rfl, rfl, h₁.note hR _⟩
  | failed e => exact ⟨_, _, _, _, rfl, rfl, h₁⟩
  | unfinished => exact ⟨_, _, _, _, rfl, rfl, h₁⟩

omit [Sink ω] in
theorem ofShortActuation_agrees (hR : Link.Mirrors R) {test : Client σ → Except Failure ActuationReport × Client σ}
    {test' : Client τ → Except Failure ActuationReport × Client τ} (h : Agree (Client.Twins R) test test') :
    AgreeShowing (Client.Twins R) (fun c (out : ω) => ofShortActuation out (test c))
      (fun d out => ofShortActuation out (test' d)) := by
  have hends : Agree (Client.Twins R) (fun c => (Outcome.ofExcept (test c).1, (test c).2))
      (fun d => (Outcome.ofExcept (test' d).1, (test' d).2)) := by
    intro c d hcd
    obtain ⟨answer, c₁, d₁, hc, hd, h₁⟩ := h hcd
    exact ⟨.ofExcept answer, c₁, d₁, by simp only [hc], by simp only [hd], h₁⟩
  exact ofActuation_agrees hR hends

theorem interactive_agrees (hR : Link.Mirrors R) (settings : ConsoleSettings) (rounds : Nat) (input : List UInt8) :
    AgreeShowing (Client.Twins R) (interactive (ω := ω) settings rounds input) (interactive settings rounds input) := by
  intro c d h out
  simp only [interactive]
  rcases Console.start_agrees hR settings h.links with ⟨console, console', hc, hd, h₁⟩ | ⟨e, l, m, hc, hd, hlinks⟩
  · obtain ⟨answer, c₂, d₂, out₁, hc₂, hd₂, h₂⟩ := Console.run_agrees hR rounds input h₁ out
    simp only [hc, hd, hc₂, hd₂]
    cases answer <;> exact ⟨_, _, _, _, rfl, rfl, h₂.links, h.connected⟩
  · simp only [hc, hd]
    exact ⟨_, _, _, _, rfl, rfl, hlinks, h.connected⟩

theorem execute_agrees (hR : Link.Mirrors R) (options : RunOptions) (rounds : Nat) (command : Command)
    (input : List UInt8) :
    AgreeShowing (Client.Twins R) (execute (ω := ω) options rounds command input)
      (execute options rounds command input) := by
  cases command with
  | read => exact readLoop_agrees hR (Client.readData_agrees hR.simulates) _ _ rounds {}
  | readRaw => exact readLoop_agrees hR (Client.readRaw_agrees hR.simulates) _ _ rounds {}
  | readIac => exact readPosition_agrees hR options.outputFormat
  | iacClose => exact ofActuation_agrees hR (Actuation.closeFrom_agrees hR rounds options.closeLimit.toNat 0)
  | iacOpen => exact ofActuation_agrees hR (Actuation.openFrom_agrees hR rounds 0)
  | ptc | fuelPump | ac => exact ofShortActuation_agrees hR (Actuation.toggleRelay_agrees hR _)
  | coil | injectors => exact ofShortActuation_agrees hR (Actuation.singleShot_agrees hR _)
  | interactive => exact interactive_agrees hR options.console rounds input

theorem wakeAndExecute_agrees (hR : Link.Mirrors R) (options : RunOptions) (rounds : Nat) (command : Command)
    (input : List UInt8) :
    AgreeShowing (Client.Twins R) (wakeAndExecute (ω := ω) options rounds command input)
      (wakeAndExecute options rounds command input) := by
  intro c d h out
  obtain ⟨answer, c₁, d₁, hc, hd, h₁⟩ := Client.initLink_agrees hR.simulates h
  simp only [wakeAndExecute, hc, hd]
  cases answer with
  | error e => exact ⟨_, _, _, _, rfl, rfl, h₁⟩
  | ok id =>
    dsimp only
    obtain ⟨_ | _, out₁⟩ := Sink.print (headerText id.toList) out
    · exact ⟨_, _, _, _, rfl, rfl, h₁⟩
    · exact execute_agrees hR options rounds command input h₁ out₁

/-- A whole run comes to the same over lines that mirror each other. -/
theorem run_mirrors (hR : Link.Mirrors R) (options : RunOptions) (rounds : Nat) (command : Command)
    (input : List UInt8) :
    AgreeShowing (Client.Twins R) (run (ω := ω) options rounds command input) (run options rounds command input) := by
  intro c d h out
  obtain ⟨answer, c₁, d₁, out₁, hc, hd, h₁⟩ := wakeAndExecute_agrees hR options rounds command input h out
  simp only [run, hc, hd]
  cases answer with
  | unfinished => exact ⟨_, _, _, _, rfl, rfl, h₁⟩
  | done _ | failed _ => exact ⟨_, _, _, _, rfl, rfl, h₁.disconnect hR⟩

end Diagnostics

end MemsProbe
