/-
Sessions with an ECU that answers every command.

A session is any operations of the client, one after the other, on a line
that keeps the promise of `AnsweringLine`. `session_answers` says of every
answer in it which replies it is taken from: those to the operation's own
commands, unless bytes were left unread before it that begin as its first
reply does. Only an operation that failed can leave them. The client has no
means to tell such leftovers from a reply; `stale_position` is a session in
which an answer belongs to an earlier command.

On a line that is prompt as well no operation fails and nothing is ever
left (`session_in_step`).
-/
import MemsProbe.Proofs.Ecu

namespace MemsProbe

open AnsweringLine

namespace Client

variable {σ : Type} [AnsweringLine σ] {c c' : Client σ}

/-! ## One operation -/

theorem exchange_passes {command : UInt8} {n : Nat} {answer} (hn : Wire.replyLength? command = some n)
    (h : c.exchange command n = (answer, c')) :
    ∃ own read, Passes own read c.link.line c'.link.line ∧
      (∀ reply, answer = .ok reply → own.map (·.command) = [command] ∧ read = command :: reply.toList) ∧
      (c.connected = true → Prompt c.link.line → unread c.link.line = [] →
        (∃ reply, answer = .ok reply) ∧ Prompt c'.link.line) ∧ c'.connected = c.connected := by
  simp only [exchange] at h
  split at h
  next hc =>
    obtain ⟨rfl, rfl⟩ := Prod.mk.inj h
    obtain ⟨own, read, hpass, hok, herr, hprompt⟩ := Link.exchange_passes hn (Prod.eta (c.link.exchange command n)).symm
    refine ⟨own, read, hpass, hok, fun _ hp hnone => ⟨?_, hprompt hp⟩, rfl⟩
    cases ha : (c.link.exchange command n).1 with
    | error e => exact absurd hnone (herr e ha hp)
    | ok reply => exact ⟨reply, rfl⟩
  next hc =>
    obtain ⟨rfl, rfl⟩ := Prod.mk.inj h
    exact ⟨[], [], .refl _, by simp, fun hc' => absurd hc' hc, rfl⟩

/-- A script that is answered takes one reply for each of its commands off
the line. -/
theorem Pursues.passes {script : List Wire.Request} {outcome : Pursued} (h : Pursues script c outcome c') :
    (∃ own read, Passes own read c.link.line c'.link.line ∧
      ∀ replies, outcome = .ok replies → own.map (·.command) = script.map (·.command) ∧
        read = Wire.stream replies) ∧
      c'.connected = c.connected := by
  induction h with
  | done c =>
    refine ⟨⟨[], [], .refl _, fun replies hr => ?_⟩, rfl⟩
    obtain rfl := Except.ok.inj hr
    exact ⟨rfl, rfl⟩
  | @failed e script r c c₁ c' he ha =>
    obtain ⟨own, read, hpass, -, -, hc⟩ := exchange_passes r.known he
    refine ⟨⟨own, read, ?_, nofun⟩, ha.connected.trans hc⟩
    rw [ha.line]
    exact hpass
  | @next script r bytes outcome c c₁ c₂ c' he ha _ ih =>
    obtain ⟨own, read, hpass, hok, -, hc⟩ := exchange_passes r.known he
    obtain ⟨⟨own', read', hpass', hok'⟩, hc'⟩ := ih
    obtain ⟨hown, rfl⟩ := hok bytes rfl
    rw [ha.line] at hpass'
    refine ⟨⟨_, _, hpass.trans hpass', fun replies hr => ?_⟩, hc'.trans (ha.connected.trans hc)⟩
    cases outcome with
    | error e => cases hr
    | ok later =>
      obtain rfl := Except.ok.inj hr
      obtain ⟨hown', rfl⟩ := hok' later rfl
      refine ⟨?_, rfl⟩
      rw [List.map_append, hown, hown']
      rfl

/-- On a prompt line with nothing unread every script is answered. -/
theorem Pursues.in_step {script : List Wire.Request} {outcome : Pursued} (h : Pursues script c outcome c')
    (hc : c.connected = true) (hp : Prompt c.link.line) (hnone : unread c.link.line = []) :
    (∃ replies, outcome = .ok replies) ∧ Prompt c'.link.line := by
  induction h with
  | done c => exact ⟨⟨[], rfl⟩, hp⟩
  | @failed e script r c c₁ c' he ha =>
    obtain ⟨_, _, -, -, hin, -⟩ := exchange_passes r.known he
    obtain ⟨⟨reply, hr⟩, -⟩ := hin hc hp hnone
    cases hr
  | @next script r bytes outcome c c₁ c₂ c' he ha _ ih =>
    obtain ⟨own, read, hpass, hok, hin, hc'⟩ := exchange_passes r.known he
    obtain ⟨hown, rfl⟩ := hok bytes rfl
    have hrest : unread c₁.link.line = [] := by
      have hu := hpass.unread_eq
      rw [hnone, List.nil_append] at hu
      have hu : Wire.stream own ++ [] = Wire.stream [r.reply bytes] ++ unread c₁.link.line := by
        simpa [Wire.stream, Wire.Reply.wire, Wire.Request.reply] using hu
      exact (Wire.stream_inj (hown : own.map _ = [r.reply bytes].map _) hu).2.symm
    obtain ⟨-, hp₁⟩ := hin hc hp hnone
    rw [← ha.line] at hp₁ hrest
    obtain ⟨⟨replies, rfl⟩, hp'⟩ := ih (ha.connected.trans (hc'.trans hc)) hp₁ hrest
    exact ⟨⟨_, rfl⟩, hp'⟩

end Client

/-! ## Sessions -/

/-- What one operation of a session did. -/
structure Performed (σ : Type) where
  operation : Operation
  answer : Except Failure Finding
  /-- The line before the operation. -/
  before : σ
  /-- The line after the operation. -/
  after : σ

/-- Operations one after the other, and the client after them. -/
def Client.session {σ : Type} [Line σ] : List Operation → Client σ → List (Performed σ) × Client σ
  | [], c => ([], c)
  | op :: ops, c =>
    match c.perform op with
    | (answer, c') =>
      (⟨op, answer, c.link.line, c'.link.line⟩ :: (Client.session ops c').1, (Client.session ops c').2)

section

variable {σ : Type} [AnsweringLine σ]

/-- The ECU answered the commands of the operation with its own replies, and
what was found is what the replies taken say, which are the first on the
line among those left unread before and those sent meanwhile. -/
structure Performed.Finds (e : Performed σ) (found : Finding) (own taken : List Wire.Reply) : Prop where
  sent_eq : sent e.after = sent e.before ++ own
  commands_eq : own.map (·.command) = e.operation.commands
  yields : e.operation.Yields taken found
  unread_eq : unread e.before ++ Wire.stream own = Wire.stream taken ++ unread e.after

variable {e : Performed σ} {found : Finding} {own taken : List Wire.Reply}

/-- With nothing left unread an operation finds what its own replies say. -/
theorem Performed.Finds.of_quiet (h : e.Finds found own taken) (hq : unread e.before = []) :
    taken = own ∧ unread e.after = [] := by
  have hu : Wire.stream own ++ [] = Wire.stream taken ++ unread e.after := by
    rw [List.append_nil, ← h.unread_eq, hq, List.nil_append]
  obtain ⟨rfl, hrest⟩ := Wire.stream_inj (h.commands_eq.trans h.yields.1.symm) hu
  exact ⟨rfl, hrest.symm⟩

/-- What was left unread begins as a reply to the operation's first command
does, or the echo would not have been accepted. -/
theorem Performed.Finds.begins (h : e.Finds found own taken) (hq : unread e.before ≠ []) :
    (unread e.before).head? = e.operation.commands.head? := by
  obtain ⟨b, rest, hb⟩ := List.exists_cons_of_ne_nil hq
  have hu := h.unread_eq
  have hc := h.yields.1
  cases taken with
  | nil =>
    have hne : e.operation.commands ≠ [] := by
      cases e.operation <;> nofun
    exact absurd hc.symm hne
  | cons r taken =>
    have hu : b :: (rest ++ Wire.stream own) = r.command :: (r.bytes ++ Wire.stream taken ++ unread e.after) := by
      simpa [hb, Wire.stream, Wire.Reply.wire] using hu
    rw [hb, ← hc, (List.cons.inj hu).1]
    rfl

theorem Client.perform_finds {c c' : Client σ} {op : Operation} (h : c.perform op = (.ok found, c')) :
    ∃ own taken, Performed.Finds ⟨op, .ok found, c.link.line, c'.link.line⟩ found own taken := by
  obtain ⟨outcome, hp, ht⟩ := perform_pursues h
  obtain ⟨⟨own, read, hpass, hok⟩, -⟩ := hp.passes
  cases outcome with
  | error failed => cases ht
  | ok replies =>
    obtain ⟨found', hf, hy⟩ := ht
    obtain rfl := Except.ok.inj hf
    obtain ⟨hown, rfl⟩ := hok replies rfl
    exact ⟨own, replies, hpass.sent_eq, hown, hy, hpass.unread_eq⟩

theorem Client.perform_connected {c c' : Client σ} {op : Operation} {answer}
    (h : c.perform op = (answer, c')) : c'.connected = c.connected := by
  obtain ⟨outcome, hp, -⟩ := perform_pursues h
  exact hp.passes.2

/-- On a prompt line with nothing unread every operation is answered. -/
theorem Client.perform_in_step {c c' : Client σ} {op : Operation} {answer} (h : c.perform op = (answer, c'))
    (hc : c.connected = true) (hp : Prompt c.link.line) (hq : unread c.link.line = []) :
    (∃ found, answer = .ok found) ∧ Prompt c'.link.line := by
  obtain ⟨outcome, hs, ht⟩ := perform_pursues h
  obtain ⟨⟨replies, rfl⟩, hp'⟩ := hs.in_step hc hp hq
  obtain ⟨found, hf, -⟩ := ht
  exact ⟨⟨found, hf⟩, hp'⟩

theorem Client.session_finds (ops : List Operation) (c : Client σ) :
    ∀ e ∈ (c.session ops).1, ∀ found, e.answer = .ok found → ∃ own taken, e.Finds found own taken := by
  induction ops generalizing c with
  | nil => simp [session]
  | cons op ops ih =>
    simp only [session, List.forall_mem_cons]
    refine ⟨fun found hf => ?_, ih _⟩
    have h : c.perform op = (.ok found, (c.perform op).2) := by rw [← hf]
    obtain ⟨own, taken, hfinds⟩ := perform_finds h
    exact ⟨own, taken, hfinds.sent_eq, hfinds.commands_eq, hfinds.yields, hfinds.unread_eq⟩

/-- As long as operations succeed, nothing is left unread between them. -/
theorem Client.session_quiet {ops : List Operation} {c : Client σ} {earlier later : List (Performed σ)}
    (hlog : (c.session ops).1 = earlier ++ e :: later) (hq : unread c.link.line = [])
    (hok : ∀ f ∈ earlier, ∃ found, f.answer = .ok found) : unread e.before = [] := by
  induction ops generalizing c earlier with
  | nil => simp [session] at hlog
  | cons op ops ih =>
    simp only [session] at hlog
    cases earlier with
    | nil =>
      simp only [List.nil_append, List.cons.injEq] at hlog
      obtain ⟨rfl, -⟩ := hlog
      exact hq
    | cons f earlier =>
      simp only [List.cons_append, List.cons.injEq] at hlog
      obtain ⟨rfl, hlog⟩ := hlog
      simp only [List.forall_mem_cons] at hok
      obtain ⟨⟨found, hf⟩, hok⟩ := hok
      have h : c.perform op = (.ok found, (c.perform op).2) := by rw [← hf]
      obtain ⟨own, taken, hfinds⟩ := perform_finds h
      exact ih hlog (hfinds.of_quiet hq).2 hok

/-- **Which replies an answer is taken from.** An operation that is answered
finds what the ECU replied to its own commands and leaves nothing unread,
unless something was unread when it began: left from the start or by an
operation that failed. Then that begins with its own first command, and what
it finds are the first replies on the line. -/
theorem Client.session_answers (ops : List Operation) (c : Client σ) :
    ∀ earlier e later found, (c.session ops).1 = earlier ++ e :: later → e.answer = .ok found →
      ∃ own taken, e.Finds found own taken ∧
        (taken = own ∧ unread e.after = [] ∨
          (unread c.link.line ≠ [] ∨ ∃ f ∈ earlier, ∃ failure, f.answer = .error failure) ∧
            unread e.before ≠ [] ∧ (unread e.before).head? = e.operation.commands.head?) := by
  intro earlier e later found hlog hfound
  obtain ⟨own, taken, hfinds⟩ := session_finds ops c e (by simp [hlog]) found hfound
  refine ⟨own, taken, hfinds, ?_⟩
  by_cases hq : unread e.before = []
  · exact .inl (hfinds.of_quiet hq)
  refine .inr ⟨?_, hq, hfinds.begins hq⟩
  by_cases hstart : unread c.link.line = []
  · by_cases hfail : ∃ f ∈ earlier, ∃ failure, f.answer = .error failure
    · exact .inr hfail
    · refine absurd (session_quiet hlog hstart fun f hf => ?_) hq
      cases ha : f.answer with
      | ok found => exact ⟨found, rfl⟩
      | error failure => exact absurd ⟨f, hf, failure, ha⟩ hfail
  · exact .inl hstart

end

/-- The ECU answers two requests for the position with 0xFB and 0x10, and the
line falls silent once, just before the first of these bytes. -/
def dawdling : Client Ecu where
  link :=
    { line :=
        { content := fun reply _ => if reply = 0 then 0xFB else 0x10
          pace := [1, 0] } }

/-- The second request of the two. -/
def dawdlingSecond : Performed Ecu :=
  (dawdling.session [.readIacPosition, .readIacPosition]).1[1]

theorem dawdlingSecond_answer : dawdlingSecond.answer = .ok (.position 0xFB) := by
  have hfound : dawdlingSecond.answer.toOption = some (.position 0xFB) := by decide +kernel
  cases ha : dawdlingSecond.answer with
  | error e =>
    rw [ha] at hfound
    cases hfound
  | ok found =>
    rw [ha] at hfound
    rw [Option.some.inj hfound]

/-- Its answer is taken from what the first one left. -/
theorem dawdling_answers :
    ∃ own taken, dawdlingSecond.Finds (.position 0xFB) own taken ∧
      (unread dawdlingSecond.before).head? = some Wire.requestIacPosition := by
  obtain ⟨own, taken, hfinds, ⟨-, hnone⟩ | ⟨-, -, hbegins⟩⟩ :=
    Client.session_answers [.readIacPosition, .readIacPosition] dawdling
      [(dawdling.session [.readIacPosition, .readIacPosition]).1[0]] dawdlingSecond [] (.position 0xFB) rfl
      dawdlingSecond_answer
  · have hleft : unread dawdlingSecond.after = [0x10] := by decide +kernel
    rw [hleft] at hnone
    cases hnone
  · exact ⟨own, taken, hfinds, hbegins⟩

/-- So it is not true that an answer is always what the ECU replied to the
operation's own commands. -/
theorem stale_position :
    ¬ ∀ (ops : List Operation) (c : Client Ecu), c.connected = true → unread c.link.line = [] →
      ∀ e ∈ (c.session ops).1, ∀ found, e.answer = .ok found →
        ∃ own, sent e.after = sent e.before ++ own ∧ e.operation.Yields own found := by
  intro h
  obtain ⟨own, hsent, hyields⟩ :=
    h [.readIacPosition, .readIacPosition] dawdling rfl rfl dawdlingSecond (List.getElem_mem _) (.position 0xFB)
      dawdlingSecond_answer
  have howed : sent dawdlingSecond.after = sent dawdlingSecond.before ++ [⟨0xFB, [0x10], rfl⟩] := by
    decide +kernel
  obtain rfl := List.append_cancel_left (howed.symm.trans hsent)
  cases hyields.2

/-- **A prompt ECU and the client stay in step.** When every command is
taken, and no read finds the line silent before the reply is over, every
operation of a session finds what the ECU replied to its own commands, and
nothing is left unread after it. -/
theorem Client.session_in_step {σ : Type} [AnsweringLine σ] (ops : List Operation) (c : Client σ)
    (connected : c.connected = true) (prompt : Prompt c.link.line) (quiet : unread c.link.line = []) :
    ∀ e ∈ (c.session ops).1, ∃ own found, e.answer = .ok found ∧ sent e.after = sent e.before ++ own ∧
      e.operation.Yields own found ∧ unread e.after = [] := by
  induction ops generalizing c with
  | nil => simp [session]
  | cons op ops ih =>
    have hstep := (Prod.eta (c.perform op)).symm
    obtain ⟨⟨found, hfound⟩, hprompt⟩ := perform_in_step hstep connected prompt quiet
    rw [hfound] at hstep
    obtain ⟨own, taken, hfinds⟩ := perform_finds hstep
    obtain ⟨rfl, hquiet⟩ := hfinds.of_quiet quiet
    simp only [session, List.forall_mem_cons]
    refine ⟨⟨taken, found, hfound, hfinds.sent_eq, hfinds.yields, hquiet⟩, ?_⟩
    exact ih _ ((perform_connected hstep).trans connected) hprompt hquiet

/-- A prompt ECU that now and then sends a few bytes at a time. -/
def brisk : Client Ecu where
  link :=
    { line :=
        { content := fun reply index => UInt8.ofNat (reply * 32 + index)
          pace := [1, 3, 1, 2, 2, 30, 7] } }

/-- The last of five operations. -/
def briskLast : Performed Ecu :=
  (brisk.session [.initLink, .readRaw, .testActuator .closeIac, .readData, .readIacPosition]).1[4]

theorem brisk_in_step :
    ∃ own found, briskLast.answer = .ok found ∧ sent briskLast.after = sent briskLast.before ++ own ∧
      Operation.readIacPosition.Yields own found ∧ unread briskLast.after = [] :=
  Client.session_in_step _ brisk rfl (Ecu.paced_prompt (by decide)) rfl briskLast (List.getElem_mem _)

end MemsProbe
