/-
What a line of input leads to.

`Deals` says how a line must come out: by what was typed, by what the line
to the ECU did with the byte that it stands for, if it stands for one, and
with what text shown. Nothing that goes wrong over that line is a failure
here; each such thing has its text, and the prompt after it. A sink does not
come into it: with any sink, handling a line either comes out so, with this
text taken by the sink, or fails because the sink refused (`Reports`), and
what was done over the line is the same in either case.

`step_dealt` puts the two together. All of it rests on what is known of an
exchange, of which the handling of a command differs only in what it shows.
-/
import MemsProbe.Proofs.Delivery
import MemsProbe.Proofs.Dialogue
import MemsProbe.Proofs.Replies
import MemsProbe.Proofs.Showing

namespace MemsProbe

/-! ## Sinks that refuse -/

namespace Sink

section

variable {ω : Type} [Sink ω]

/-- A sink takes the beginning of a text, and refuses the piece that comes
next or to pass on what it has. -/
inductive Refuses (s : ω) (text : String) : Failure → ω → Prop
  | write : Takes s before t → Sink.write piece t = (.error m, u) → (∃ rest, text = before ++ piece ++ rest) →
      Refuses s text (.io m) u
  | flush : Takes s before t → Sink.flush t = (.error m, u) → (∃ rest, text = before ++ rest) →
      Refuses s text (.io m) u

variable {s t u : ω} {e : Failure} {text more : String}

theorem Refuses.after (ht : Takes s text t) (h : Refuses t more e u) : Refuses s (text ++ more) e u := by
  cases h with
  | write ht' hw heq =>
    obtain ⟨rest, rfl⟩ := heq
    exact .write (ht.trans ht') hw ⟨rest, by simp only [String.append_assoc]⟩
  | flush ht' hf heq =>
    obtain ⟨rest, rfl⟩ := heq
    exact .flush (ht.trans ht') hf ⟨rest, by simp only [String.append_assoc]⟩

theorem Refuses.append (h : Refuses s text e u) (more : String) : Refuses s (text ++ more) e u := by
  cases h with
  | write ht hw heq =>
    obtain ⟨rest, rfl⟩ := heq
    exact .write ht hw ⟨rest ++ more, String.append_assoc ..⟩
  | flush ht hf heq =>
    obtain ⟨rest, rfl⟩ := heq
    exact .flush ht hf ⟨rest ++ more, String.append_assoc ..⟩

theorem Works.never_refuses (works : Works s) : ¬ Refuses s text e u := by
  intro h
  cases h with
  | @write before t piece m _ ht hw _ =>
    have hok := (works t ht.leads).1 piece
    rw [hw] at hok
    cases hok
  | @flush before t m _ ht hf _ =>
    have hok := (works t ht.leads).2
    rw [hf] at hok
    cases hok

theorem print_or_refuses (text : String) (s : ω) :
    (∃ t, Sink.print text s = (.ok (), t) ∧ Takes s text t) ∨
      ∃ e t, Sink.print text s = (.error e, t) ∧ Refuses s text e t := by
  rcases hp : Sink.print text s with ⟨e | _, t⟩
  · refine .inr ⟨e, t, rfl, ?_⟩
    unfold Sink.print at hp
    split at hp
    · simp at hp
    · rcases hw : Sink.write text s with ⟨m | _, u⟩
      · obtain ⟨rfl, rfl⟩ := by simpa [hw, asFailure] using hp
        exact .write (.nothing s) hw ⟨"", by simp⟩
      · simp [hw, asFailure] at hp
  · exact .inl ⟨t, rfl, takes_print hp⟩

theorem emit_or_refuses (text : String) (s : ω) :
    (∃ t, Sink.emit text s = (.ok (), t) ∧ Takes s text t) ∨
      ∃ e t, Sink.emit text s = (.error e, t) ∧ Refuses s text e t := by
  obtain ⟨t, hp, ht⟩ | ⟨e, t, hp, hr⟩ := print_or_refuses text s
  · rcases hf : Sink.flush t with ⟨m | _, u⟩
    · exact .inr ⟨.io m, u, by simp [Sink.emit, hp, hf, asFailure], .flush ht hf ⟨"", by simp⟩⟩
    · exact .inl ⟨u, by simp [Sink.emit, hp, hf, asFailure], ht.flush hf⟩
  · exact .inr ⟨e, t, by simp [Sink.emit, hp], hr⟩

end

end Sink

/-! ## Texts that end a line -/

/-- The next text will stand at the beginning of a line. -/
def EndsLine (text : String) : Prop :=
  text = "" ∨ ∃ body, text = body ++ "\n"

theorem EndsLine.append {a b : String} (ha : EndsLine a) (hb : EndsLine b) : EndsLine (a ++ b) := by
  obtain rfl | ⟨body, rfl⟩ := hb
  · rwa [String.append_empty]
  · exact .inr ⟨a ++ body, (String.append_assoc ..).symm⟩

theorem Hex.dumpFrom_ends (room : Nat) (bytes : List UInt8) : ∃ body, dumpFrom room bytes = body ++ ['\n'] := by
  induction bytes generalizing room with
  | nil => exact ⟨[], rfl⟩
  | cons b bytes ih =>
    rw [dumpFrom]
    split
    · obtain ⟨body, hbody⟩ := ih rowLength
      exact ⟨cell b ++ '\n' :: body, by simp [hbody]⟩
    · obtain ⟨body, hbody⟩ := ih (room - 1)
      exact ⟨cell b ++ body, by simp [hbody]⟩

theorem Hex.dump_endsLine (bytes : List UInt8) : EndsLine (Hex.dump bytes) := by
  obtain ⟨body, hbody⟩ := Hex.dumpFrom_ends rowLength bytes
  exact .inr ⟨String.ofList body, by rw [dump, hbody, String.ofList_append]⟩

namespace Console

theorem failureText_endsLine (e : Failure) : EndsLine (failureText e) := by
  refine .inr ⟨"Error: " ++ e.message ++ ".", ?_⟩
  rw [failureText, show ".\n" = "." ++ "\n" by rfl, ← String.append_assoc]

theorem rejectionText_endsLine (cause : Failure) : EndsLine (rejectionText cause) := by
  cases cause with
  | outOfRange _ => exact .inr ⟨"Error: command must be between 0x00 and 0xFF.", rfl⟩
  | _ => exact failureText_endsLine _

theorem responseText_endsLine (response : List UInt8) (failure : Option Failure) :
    EndsLine (responseText response failure) := by
  unfold responseText
  split
  · exact Hex.dump_endsLine response
  · split
    · exact .inr ⟨"No response from ECU.", rfl⟩
    · exact .inl rfl

/-! ## How a line comes out -/

section

variable {σ : Type}

/-- A byte was asked of the line to the ECU, and that is all that was done. -/
structure Asked (c : Console σ) (b : UInt8) (i : Inquiry σ) (d : Console σ) : Prop where
  line : d.link.line = i.line
  calls : d.link.calls.toList = c.link.calls.toList ++ i.calls b
  policy : d.policy = c.policy
  capacity : d.response.capacity = c.response.capacity
  response : d.response.bytes.toList = (delivered i.heard).take c.response.capacity

/-- The consoles differ at most in their notes. -/
structure Alike (d d' : Console σ) : Prop where
  line : d'.link.line = d.link.line
  calls : d'.link.calls = d.link.calls
  policy : d'.policy = d.policy
  response : d'.response = d.response

theorem Alike.refl (d : Console σ) : Alike d d :=
  ⟨rfl, rfl, rfl, rfl⟩

/-- All that is shown of a reply: the bytes that were kept of it, and the
failure that it ended in. -/
def replyText (kept : List UInt8) (failure : Option Failure) : String :=
  responseText kept failure ++ failure.elim "" failureText

theorem replyText_endsLine (kept : List UInt8) (failure : Option Failure) : EndsLine (replyText kept failure) := by
  refine (responseText_endsLine kept failure).append ?_
  cases failure with
  | none => exact .inl rfl
  | some cause => exact failureText_endsLine cause

variable [Line σ]

/-- How a line of input comes out: the answer, the console after it and the
text shown. -/
inductive Deals (rounds : Nat) (c : Console σ) (line : String) : Outcome Step → Console σ → String → Prop
  | quit : AsksToLeave line → Deals rounds c line (.done .quit) c ""
  | blank : Text.trim line.toList = [] → Deals rounds c line (.done .blank) c promptText
  | rejected : ¬ AsksToLeave line → Text.trim line.toList ≠ [] →
      CommandByte.parse c.policy (String.ofList (Text.trim line.toList)) = .error cause →
      Deals rounds c line (.done .rejected) c (rejectionText cause ++ promptText)
  /-- The byte did not go out, and nothing is read. -/
  | writeFailed : ¬ AsksToLeave line → typedByte? c.policy line = some b →
      Line.write [b] c.link.line = (taken, s) → taken ≠ .ok 1 → c.Asked b ⟨taken, [], s⟩ d →
      Deals rounds c line (.done (.writeFailed b)) d (writeFailedText ++ promptText)
  /-- The reply is read up to its stop. -/
  | exchanged : ¬ AsksToLeave line → typedByte? c.policy line = some b →
      Line.write [b] c.link.line = (.ok 1, s) → Line.Delivers s bytes stop t → bytes.length < rounds →
      c.Asked b ⟨.ok 1, stop.after bytes, t⟩ d →
      Deals rounds c line (.done (.exchanged b d.response.size)) d
        (replyText (bytes.take c.response.capacity) (stop.answer c.response.capacity bytes.length).failure? ++
          promptText)
  /-- The reply goes on for as long as there are rounds. -/
  | unfinished : ¬ AsksToLeave line → typedByte? c.policy line = some b →
      Line.write [b] c.link.line = (.ok 1, s) → ¬ Line.StopsWithin rounds s →
      c.Asked b ⟨.ok 1, (Line.listen rounds s).1, (Line.listen rounds s).2⟩ d →
      Deals rounds c line .unfinished d ""

variable {c d : Console σ} {rounds : Nat} {line : String} {b : UInt8} {answer : Outcome Step} {shown : String}
  {s : Step}

theorem not_blank_of_leave (h : AsksToLeave line) : Text.trim line.toList ≠ [] := by
  obtain h | h := h <;> simp [h]

theorem parse_of_typed {policy : HexPolicy} (h : typedByte? policy line = some b) :
    Text.trim line.toList ≠ [] ∧ CommandByte.parse policy (String.ofList (Text.trim line.toList)) = .ok b := by
  simp only [typedByte?] at h
  split at h
  · cases h
  next hne =>
    refine ⟨by simpa using hne, ?_⟩
    cases hparse : CommandByte.parse policy (String.ofList (Text.trim line.toList)) with
    | error e =>
      rw [hparse] at h
      cases h
    | ok b' =>
      rw [hparse] at h
      rw [Option.some.inj h]

/-- No line comes out as a failure. -/
theorem Deals.ne_failed (h : Deals rounds c line answer d shown) (e : Failure) : answer ≠ .failed e := by
  cases h <;> nofun

/-- Which lines are dealt with without a byte being offered. -/
theorem Deals.kind (h : Deals rounds c line (.done s) d shown) :
    (s = .quit ↔ AsksToLeave line) ∧ (s = .blank ↔ Text.trim line.toList = []) ∧
      (s = .rejected ↔ ¬ AsksToLeave line ∧ Text.trim line.toList ≠ [] ∧
        ∃ cause, CommandByte.parse c.policy (String.ofList (Text.trim line.toList)) = .error cause) := by
  cases h with
  | quit hleave =>
    have := not_blank_of_leave hleave
    simp [hleave, this]
  | blank hblank =>
    have : ¬ AsksToLeave line := fun hleave => not_blank_of_leave hleave hblank
    simp [hblank, this]
  | rejected hleave hne hparse => simp [hleave, hne, hparse]
  | writeFailed hleave hb | exchanged hleave hb =>
    obtain ⟨hne, hparse⟩ := parse_of_typed hb
    simp [hleave, hne, hparse]

/-- A line that stands for no byte leaves the console as it is. -/
theorem Deals.untyped (h : Deals rounds c line answer d shown)
    (hnone : AsksToLeave line ∨ typedByte? c.policy line = none) : d = c := by
  cases h with
  | quit | blank | rejected => rfl
  | writeFailed hleave hb | exchanged hleave hb | unfinished hleave hb => simp [hleave, hb] at hnone

/-- A line that stands for a byte has it offered, and what came of that
decides. -/
theorem Deals.typed (h : Deals rounds c line answer d shown) (hleave : ¬ AsksToLeave line)
    (hb : typedByte? c.policy line = some b) :
    ∃ i, c.Asked b i d ∧ i.taken = (Line.write [b] c.link.line).1 ∧
      (i.taken ≠ .ok 1 ∧ i.heard = [] ∧ answer = .done (.writeFailed b) ∨
        i.taken = .ok 1 ∧ Line.StopsWithin rounds (Line.write [b] c.link.line).2 ∧
            answer = .done (.exchanged b d.response.size) ∨
          i.taken = .ok 1 ∧ ¬ Line.StopsWithin rounds (Line.write [b] c.link.line).2 ∧ answer = .unfinished) := by
  cases h with
  | quit h => exact absurd h hleave
  | blank hblank => exact absurd hblank (parse_of_typed hb).1
  | rejected _ _ hparse =>
    rw [(parse_of_typed hb).2] at hparse
    cases hparse
  | writeFailed _ hb' hw ht ha =>
    obtain rfl := Option.some.inj (hb'.symm.trans hb)
    rw [hw]
    exact ⟨_, ha, rfl, .inl ⟨ht, rfl, rfl⟩⟩
  | exchanged _ hb' hw hd hr ha =>
    obtain rfl := Option.some.inj (hb'.symm.trans hb)
    rw [hw]
    exact ⟨_, ha, rfl, .inr (.inl ⟨rfl, ⟨_, _, _, hd, hr⟩, rfl⟩)⟩
  | unfinished _ hb' hw hstops ha =>
    obtain rfl := Option.some.inj (hb'.symm.trans hb)
    rw [hw]
    exact ⟨_, ha, rfl, .inr (.inr ⟨rfl, hstops, rfl⟩)⟩

/-- A byte is offered once. If it does not go out, nothing is read or kept. -/
theorem Deals.offers (h : Deals rounds c line answer d shown) (hleave : ¬ AsksToLeave line)
    (hb : typedByte? c.policy line = some b) :
    let sent := Line.write [b] c.link.line
    ∃ hs, c.link.callsUntil d.link = .write [b] sent.1 :: hs.map (.read 1) ∧
      (sent.1 ≠ .ok 1 → hs = [] ∧ d.response.bytes.toList = []) ∧
        ∀ s, answer = .done s → (sent.1 ≠ .ok 1 → s = .writeFailed b) ∧
          (sent.1 = .ok 1 → s = .exchanged b d.response.size) := by
  intro sent
  obtain ⟨i, ha, ht, hcases⟩ := h.typed hleave hb
  have hcalls : c.link.callsUntil d.link = i.calls b := Link.callsUntil_eq ha.calls
  rw [Inquiry.calls, ht] at hcalls
  rw [ht] at hcases
  obtain ⟨hne, hsilent, rfl⟩ | ⟨hone, -, rfl⟩ | ⟨hone, -, rfl⟩ := hcases
  · refine ⟨i.heard, hcalls, fun _ => ⟨hsilent, ?_⟩, fun s hs => ⟨fun _ => ?_, fun h => absurd h hne⟩⟩
    · rw [ha.response, hsilent]
      exact List.take_nil
    · exact (Outcome.done.inj hs).symm
  · refine ⟨i.heard, hcalls, fun h => absurd hone h, fun s hs => ⟨fun h => absurd hone h, fun _ => ?_⟩⟩
    exact (Outcome.done.inj hs).symm
  · refine ⟨i.heard, hcalls, fun h => absurd hone h, fun s hs => ?_⟩
    cases hs

theorem Deals.unfinished_iff (h : Deals rounds c line answer d shown) :
    answer = .unfinished ↔ ∃ b s, ¬ AsksToLeave line ∧ typedByte? c.policy line = some b ∧
      Line.write [b] c.link.line = (.ok 1, s) ∧ ¬ Line.StopsWithin rounds s := by
  constructor
  · rintro rfl
    cases h with
    | unfinished hleave hb hw hstops _ => exact ⟨_, _, hleave, hb, hw, hstops⟩
  · rintro ⟨b, s, hleave, hb, hw, hstops⟩
    obtain ⟨i, -, ht, ⟨hne, -⟩ | ⟨-, hin, -⟩ | ⟨-, -, hanswer⟩⟩ := h.typed hleave hb
    · exact absurd (by rw [ht, hw]) hne
    · rw [hw] at hin
      exact absurd hin hstops
    · exact hanswer

/-- The prompt comes last, at the beginning of a line. -/
theorem Deals.prompts (h : Deals rounds c line (.done s) d shown) (hs : s ≠ .quit) :
    ∃ before, EndsLine before ∧ shown = before ++ promptText := by
  cases h with
  | quit => exact absurd rfl hs
  | blank => exact ⟨"", .inl rfl, (String.empty_append ..).symm⟩
  | rejected => exact ⟨_, rejectionText_endsLine _, rfl⟩
  | writeFailed => exact ⟨_, .inr ⟨"Error: failed to write command byte to serial port.", rfl⟩, rfl⟩
  | exchanged => exact ⟨_, replyText_endsLine _ _, rfl⟩

end

/-- What becomes of a line, with a sink of its own: the sink takes the text,
or it refuses some of it, and then that is the failure. -/
inductive Reports {σ ω : Type} [Sink ω] (out : ω) :
    Outcome Step → Console σ → String → Outcome Step × Console σ × ω → Prop
  | shown : Alike d d' → Sink.Takes out text out' → Reports out answer d text (answer, d', out')
  | refused : s ≠ .quit → Alike d d' → Sink.Refuses out text e out' → Reports out (.done s) d text (.failed e, d', out')

section

variable {σ ω : Type} [Sink ω] {c d : Console σ} {out : ω} {text more : String} {s : Step} {answer : Outcome Step}
  {run : Outcome Step × Console σ × ω}

theorem Reports.alike (h : Reports out answer d text run) : Alike d run.2.1 := by
  cases h <;> assumption

theorem Reports.done (h : Reports out answer d text run) (hs : run.1 = .done s) :
    answer = .done s ∧ Sink.Takes out text run.2.2 := by
  cases h with
  | shown _ ht => exact ⟨hs, ht⟩
  | refused => cases hs

theorem Reports.failed {e : Failure} (h : Reports out answer d text run) (he : run.1 = .failed e)
    (hne : answer ≠ .failed e) : Sink.Refuses out text e run.2.2 := by
  cases h with
  | shown => exact absurd he hne
  | refused _ _ hr =>
    obtain rfl := Outcome.failed.inj he
    exact hr

theorem Reports.unfinished_iff (h : Reports out answer d text run) : run.1 = .unfinished ↔ answer = .unfinished := by
  cases h with
  | shown => rfl
  | refused => simp

theorem Reports.prompt (h : Reports out (.done s) d text run) (hs : s ≠ .quit) :
    Reports out (.done s) d (text ++ promptText) (Console.prompt run) := by
  cases h with
  | @shown _ d' _ out₁ _ ha ht =>
    obtain ⟨out', he, ht'⟩ | ⟨e, out', he, hr⟩ := Sink.emit_or_refuses promptText out₁
    · have hshown : Reports out (.done s) d (text ++ promptText) (.done s, d', out') := .shown ha (ht.trans ht')
      simpa [Console.prompt, he] using hshown
    · simpa [Console.prompt, he] using Reports.refused hs ha (hr.after ht)
  | refused _ ha hr => exact .refused hs ha (hr.append promptText)

variable [Line σ] {b : UInt8} {rounds : Nat}

theorem exchange_asked (rounds : Nat) (b : UInt8) (c : Console σ) :
    c.Asked b (Line.inquire rounds b c.link.line) (c.exchange rounds b).2 := by
  obtain ⟨hline, hcalls, hcap, hbytes, -⟩ := exchange_inquires (Prod.eta (c.exchange rounds b)).symm
  refine ⟨hline, hcalls, ?_, hcap, hbytes⟩
  obtain ⟨_, _, -, -, -, -, hpolicy, -⟩ := send_writes (Prod.eta (c.send b)).symm
  unfold exchange
  split
  next hs => rwa [hs] at hpolicy
  next c₁ hs =>
    obtain ⟨_, -, -, hpolicy', -⟩ := drain_listens (Prod.eta (c₁.drain rounds)).symm
    rw [hs] at hpolicy
    exact hpolicy'.trans hpolicy

/-- A byte that did not go out is told of. -/
theorem exchangeAndTell_unsent (rounds : Nat) (out : ω) (h : (Line.write [b] c.link.line).1 ≠ .ok 1) :
    Reports out (.done (.writeFailed b)) (c.exchange rounds b).2 writeFailedText (c.exchangeAndTell rounds b out) := by
  rcases hs : c.send b with ⟨cause | _, c₁⟩
  · have hafter : (c.exchange rounds b).2 = c₁ := by simp [exchange, hs]
    let d := { c₁ with link := c₁.link.note (.writeFailed b cause) }
    have halike : Alike (c.exchange rounds b).2 d := by
      rw [hafter]
      exact ⟨rfl, rfl, rfl, rfl⟩
    obtain ⟨out', hp, ht⟩ | ⟨e, out', hp, hr⟩ := Sink.print_or_refuses writeFailedText out
    · rw [show c.exchangeAndTell rounds b out = (.done (.writeFailed b), d, out') by simp [exchangeAndTell, hs, hp, d]]
      exact .shown halike ht
    · rw [show c.exchangeAndTell rounds b out = (.failed e, d, out') by simp [exchangeAndTell, hs, hp, d]]
      exact .refused (by simp) halike hr
  · obtain ⟨taken, l', hw, -, -, -, -, hok⟩ := send_writes hs
    rw [Link.line_write hw] at h
    exact absurd (hok.1 rfl) h

omit [Line σ] in
theorem tell_reports (b : UInt8) (kept : List UInt8) (failure : Option Failure) (c : Console σ) (out : ω) :
    ∃ answer d out', c.tell b (responseText kept failure) failure out = (answer, d, out') ∧ Alike c d ∧
      (answer = .ok () ∧ Sink.Takes out (replyText kept failure) out' ∨
        ∃ e, answer = .error e ∧ Sink.Refuses out (replyText kept failure) e out') := by
  obtain ⟨out₁, hp, ht⟩ | ⟨e, out₁, hp, hr⟩ := Sink.print_or_refuses (responseText kept failure) out
  · cases failure with
    | none =>
      refine ⟨.ok (), c, out₁, by simp [tell, hp], .refl c, .inl ⟨rfl, ?_⟩⟩
      simpa [replyText] using ht
    | some cause =>
      let d := { c with link := c.link.note (.replyCutShort b cause) }
      have halike : Alike c d := ⟨rfl, rfl, rfl, rfl⟩
      obtain ⟨out', hp', ht'⟩ | ⟨e, out', hp', hr⟩ := Sink.print_or_refuses (failureText cause) out₁
      · exact ⟨.ok (), d, out', by simp [tell, hp, hp', d], halike, .inl ⟨rfl, ht.trans ht'⟩⟩
      · exact ⟨.error e, d, out', by simp [tell, hp, hp', d], halike, .inr ⟨e, rfl, hr.after ht⟩⟩
  · exact ⟨.error e, c, out₁, by simp [tell, hp], .refl c, .inr ⟨e, rfl, hr.append _⟩⟩

/-- A reply that ends is shown. -/
theorem exchangeAndTell_sent (out : ω) (h : (Line.write [b] c.link.line).1 = .ok 1)
    (hends : (c.exchange rounds b).1 ≠ .unfinished) :
    let ended := c.exchange rounds b
    Reports out (.done (.exchanged b ended.2.response.size)) ended.2
      (replyText ended.2.response.bytes.toList ended.1.failure?) (c.exchangeAndTell rounds b out) := by
  rcases hs : c.send b with ⟨cause | _, c₁⟩
  · obtain ⟨taken, l', hw, -, -, -, -, hok⟩ := send_writes hs
    rw [Link.line_write hw] at h
    exact absurd (hok.2 h) (by simp)
  · rcases hd : c₁.drain rounds with ⟨drained, c₂⟩
    have hx : c.exchange rounds b = (drained, c₂) := by simp [exchange, hs, hd]
    rw [hx] at hends ⊢
    obtain ⟨answer, d, out', htell, halike, htold⟩ :=
      tell_reports b c₂.response.bytes.toList drained.failure? c₂ out
    obtain ⟨rfl, ht⟩ | ⟨e, rfl, hr⟩ := htold
    · have hrun : c.exchangeAndTell rounds b out = (.done (.exchanged b c₂.response.size), d, out') := by
        cases drained with
        | unfinished => exact absurd rfl hends
        | done _ | failed _ => simp [exchangeAndTell, hs, hd, htell, halike.response]
      rw [hrun]
      exact .shown halike ht
    · have hrun : c.exchangeAndTell rounds b out = (.failed e, d, out') := by
        cases drained with
        | unfinished => exact absurd rfl hends
        | done _ | failed _ => simp [exchangeAndTell, hs, hd, htell]
      rw [hrun]
      exact .refused (by simp) halike hr

/-- While a reply goes on, nothing is shown. -/
theorem exchangeAndTell_unfinished (out : ω) (hon : (c.exchange rounds b).1 = .unfinished) :
    c.exchangeAndTell rounds b out = (.unfinished, (c.exchange rounds b).2, out) := by
  rcases hs : c.send b with ⟨cause | _, c₁⟩
  · simp [exchange, hs] at hon
  · rcases hd : c₁.drain rounds with ⟨drained, c₂⟩
    have hx : c.exchange rounds b = (drained, c₂) := by simp [exchange, hs, hd]
    rw [hx] at hon ⊢
    obtain rfl : drained = .unfinished := hon
    simp [exchangeAndTell, hs, hd]

/-- Whatever a command byte leads to, it comes out as it must. -/
theorem exchangeAndTell_deals {line : String} (out : ω) (hleave : ¬ AsksToLeave line)
    (hb : typedByte? c.policy line = some b) (rounds : Nat) :
    ∃ answer d shown, Deals rounds c line answer d shown ∧
      Reports out answer d shown (prompt (c.exchangeAndTell rounds b out)) := by
  have hasked := exchange_asked rounds b c
  have hsent := (Prod.eta (Line.write [b] c.link.line)).symm
  by_cases ht : (Line.write [b] c.link.line).1 = .ok 1
  · rw [ht] at hsent
    by_cases hon : (c.exchange rounds b).1 = .unfinished
    · have hstops : ¬ Line.StopsWithin rounds _ := fun h => (exchange_ends_iff rounds ht).2 h hon
      rw [Line.inquire_taken hsent] at hasked
      refine ⟨_, _, _, .unfinished hleave hb hsent hstops hasked, ?_⟩
      rw [exchangeAndTell_unfinished out hon]
      exact .shown (.refl _) (.nothing out)
    · obtain ⟨bytes, stop, t, hd, hr⟩ := (exchange_ends_iff rounds ht).1 hon
      rw [Line.inquire_taken hsent, hd.listen hr] at hasked
      refine ⟨_, _, _, .exchanged hleave hb hsent hd hr hasked, ?_⟩
      have hreports := exchangeAndTell_sent out ht hon
      have hkept := hasked.response
      rw [Stop.delivered_after] at hkept
      simp only [hkept, exchange_delivers ht hd hr] at hreports
      exact hreports.prompt nofun
  · rw [Line.inquire_not_taken hsent ht] at hasked
    exact ⟨_, _, _, .writeFailed hleave hb hsent ht hasked, (exchangeAndTell_unsent rounds out ht).prompt nofun⟩

theorem step_quit {line : String} (hleave : AsksToLeave line) (rounds : Nat) (c : Console σ) (out : ω) :
    c.step rounds line out = (.done .quit, c, out) :=
  if_pos hleave

theorem step_blank {line : String} (hblank : Text.trim line.toList = []) (rounds : Nat) (c : Console σ) (out : ω) :
    c.step rounds line out = prompt (.done .blank, c, out) := by
  simp [step, hblank]

theorem step_command {line : String} (hleave : ¬ AsksToLeave line) (hne : Text.trim line.toList ≠ [])
    (rounds : Nat) (c : Console σ) (out : ω) :
    c.step rounds line out = prompt (c.command rounds (String.ofList (Text.trim line.toList)) out) :=
  (if_neg hleave).trans (if_neg (by simpa using hne))

theorem step_deals (rounds : Nat) (line : String) (c : Console σ) (out : ω) :
    ∃ answer d shown, Deals rounds c line answer d shown ∧ Reports out answer d shown (c.step rounds line out) := by
  by_cases hleave : AsksToLeave line
  · rw [step_quit hleave]
    exact ⟨_, _, _, .quit hleave, .shown (.refl c) (.nothing out)⟩
  by_cases hblank : Text.trim line.toList = []
  · have hreports : Reports out (.done .blank) c "" (.done .blank, c, out) := .shown (.refl c) (.nothing out)
    rw [step_blank hblank]
    exact ⟨_, _, _, .blank hblank, by simpa using hreports.prompt (by simp)⟩
  rw [step_command hleave hblank, command]
  cases hparse : CommandByte.parse c.policy (String.ofList (Text.trim line.toList)) with
  | ok b =>
    have hb : typedByte? c.policy line = some b := by simp [typedByte?, hblank, hparse, Except.toOption]
    exact exchangeAndTell_deals out hleave hb rounds
  | error cause =>
    refine ⟨_, _, _, .rejected hleave hblank hparse, ?_⟩
    obtain ⟨out', hp, ht⟩ | ⟨e, out', hp, hr⟩ := Sink.print_or_refuses (rejectionText cause) out
    · have hreports : Reports out (.done .rejected) c (rejectionText cause) (.done .rejected, c, out') :=
        .shown (.refl c) ht
      simpa [hp] using hreports.prompt (by simp)
    · have hreports : Reports out (.done .rejected) c (rejectionText cause) (.failed e, c, out') :=
        .refused (by simp) (.refl c) hr
      simpa [hp] using hreports.prompt (by simp)

/-- What there is to say of a line that was handled, with whatever sink. -/
structure Dealt (rounds : Nat) (line : String) (c : Console σ) (out : ω) (run : Outcome Step × Console σ × ω) :
    Prop where
  /-- It came out as it must, unless the sink refused. -/
  deals : ∃ answer d shown, Deals rounds c line answer d shown ∧ Reports out answer d shown run
  failed : ∀ e, run.1 = .failed e → ∃ text, Sink.Refuses out text e run.2.2
  works : Sink.Works out → ∀ e, run.1 ≠ .failed e
  /-- It does not come to an end just when the reply does not. -/
  unfinished_iff : run.1 = .unfinished ↔ ∃ b s, ¬ AsksToLeave line ∧ typedByte? c.policy line = some b ∧
    Line.write [b] c.link.line = (.ok 1, s) ∧ ¬ Line.StopsWithin rounds s
  quit_iff : run.1 = .done .quit ↔ AsksToLeave line
  quits : AsksToLeave line → run = (.done .quit, c, out)
  blank_iff : ∀ s, run.1 = .done s → (s = .blank ↔ Text.trim line.toList = [])
  rejected_iff : ∀ s, run.1 = .done s → (s = .rejected ↔ ¬ AsksToLeave line ∧ Text.trim line.toList ≠ [] ∧
    ∃ cause, CommandByte.parse c.policy (String.ofList (Text.trim line.toList)) = .error cause)
  /-- Without a byte to offer, no call is made and the last reply is kept. -/
  untyped : AsksToLeave line ∨ typedByte? c.policy line = none → Alike c run.2.1
  /-- A byte is offered once. If it does not go out, nothing is read or kept;
  otherwise single bytes are read, and that is all. -/
  typed : ∀ b, ¬ AsksToLeave line → typedByte? c.policy line = some b →
    let sent := Line.write [b] c.link.line
    ∃ hs, c.link.callsUntil run.2.1.link = .write [b] sent.1 :: hs.map (.read 1) ∧
      (sent.1 ≠ .ok 1 → hs = [] ∧ run.2.1.response.bytes.toList = []) ∧
        ∀ s, run.1 = .done s → (sent.1 ≠ .ok 1 → s = .writeFailed b) ∧
          (sent.1 = .ok 1 → s = .exchanged b run.2.1.response.size)
  /-- The prompt is the last that was shown, at the beginning of a line. -/
  prompts : ∀ s, run.1 = .done s → s ≠ .quit →
    ∃ before, EndsLine before ∧ Sink.Takes out (before ++ promptText) run.2.2

/-- **A step never fails for what the line to the ECU does, or for what was
typed**: not with any line, however it takes the byte, falls silent, fails or
goes on, nor with any text. It fails only if its sink refuses, with what the
sink says, and it does not come to an end only if a reply does not. Wishes to
leave, blank lines and lines that stand for no byte are told apart by their
text and leave the line to the ECU and the last reply alone; anything else
offers its byte once, and whether just that was taken decides the answer. A
wish to leave shows nothing at all; everything else ends with the prompt. -/
theorem step_dealt (rounds : Nat) (line : String) (c : Console σ) (out : ω) :
    Dealt rounds line c out (c.step rounds line out) := by
  obtain ⟨answer, d, shown, hdeals, hreports⟩ := step_deals rounds line c out
  have halike := hreports.alike
  have hfailed : ∀ e, (c.step rounds line out).1 = .failed e → Sink.Refuses out shown e (c.step rounds line out).2.2 :=
    fun e he => hreports.failed he (hdeals.ne_failed e)
  exact
    { deals := ⟨answer, d, shown, hdeals, hreports⟩
      failed := fun e he => ⟨shown, hfailed e he⟩
      works := fun works e he => works.never_refuses (hfailed e he)
      unfinished_iff := hreports.unfinished_iff.trans hdeals.unfinished_iff
      quit_iff := by
        refine ⟨fun h => ?_, fun h => by rw [step_quit h]⟩
        obtain ⟨rfl, -⟩ := hreports.done h
        exact hdeals.kind.1.1 rfl
      quits := fun hleave => step_quit hleave rounds c out
      blank_iff := by
        intro s hs
        obtain ⟨rfl, -⟩ := hreports.done hs
        exact hdeals.kind.2.1
      rejected_iff := by
        intro s hs
        obtain ⟨rfl, -⟩ := hreports.done hs
        exact hdeals.kind.2.2
      untyped := fun hnone => hdeals.untyped hnone ▸ halike
      typed := by
        intro b hleave hb sent
        obtain ⟨hs, hcalls, hunsent, hsent⟩ := hdeals.offers hleave hb
        rw [halike.response, Link.callsUntil, halike.calls]
        exact ⟨hs, hcalls, hunsent, fun s hdone => hsent s (hreports.done hdone).1⟩
      prompts := by
        intro s hs hquit
        obtain ⟨rfl, ht⟩ := hreports.done hs
        obtain ⟨before, hends, rfl⟩ := hdeals.prompts hquit
        exact ⟨before, hends, ht⟩ }

/-- A console over a line that answers every byte with that byte and a fault. -/
def faulty : Console ScriptedLine where
  link := { line := { replies := fun b => [[.piece [b], .fault (.serial "gone")]] } }
  policy := .strict
  response := ⟨#[], 4, by decide⟩

/-- The fault is shown and the prompt comes after it, but a sink that has no
room ends the step. -/
theorem faulty_dealt :
    (∃ before, EndsLine before ∧ (faulty.step 4 "1f\n" ({} : BoundedSink)).2.2.offered = before ++ promptText) ∧
      (faulty.step 4 "1f\n" ({} : BoundedSink)).1 = .done (.exchanged 0x1F 1) ∧
      (faulty.step 4 "1f\n" ({ limit := some 0 } : BoundedSink)).1 = .failed (.io "output closed") ∧
      ∃ text out, Sink.Refuses ({ limit := some 0 } : BoundedSink) text (.io "output closed") out := by
  have hopen : ({} : BoundedSink).Open := ⟨rfl, rfl⟩
  have hdone : (faulty.step 4 "1f\n" ({} : BoundedSink)).1 = .done (.exchanged 0x1F 1) := by decide +kernel
  have hfailed : (faulty.step 4 "1f\n" ({ limit := some 0 } : BoundedSink)).1 = .failed (.io "output closed") := by
    decide +kernel
  obtain ⟨before, hends, ht⟩ := (step_dealt 4 "1f\n" faulty ({} : BoundedSink)).prompts _ hdone nofun
  obtain ⟨text, hr⟩ := (step_dealt 4 "1f\n" faulty ({ limit := some 0 } : BoundedSink)).failed _ hfailed
  exact ⟨⟨before, hends, by simpa using congrArg BoundedSink.offered (hopen.takes ht)⟩, hdone, hfailed, text, _, hr⟩

end

end Console
end MemsProbe
