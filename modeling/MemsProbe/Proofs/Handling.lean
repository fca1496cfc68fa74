/-
A session of the console is its lines, handled one after the other.

`Handles` is that and nothing more: each line is text, the user has not
asked to stop, and the console that handles it is the one that the line
before it left. `Ends` says what can stop a session short of a further line.
A session is the one followed by the other (`run_folds`); what it shows is
what its lines show, its summary can be had from the record of the calls,
and lines that it did not come to make no difference.

What a line shows does not depend on the sink that it is shown to, as long
as that works (`step_shows`), so the session is told without mention of one.
-/
import Mathlib
import MemsProbe.Proofs.Dialogue
import MemsProbe.Proofs.Replies
import MemsProbe.Proofs.Showing

namespace MemsProbe

/-! ## The lines of a stream -/

namespace Text

/-- The lines that a stream falls into: each is closed by its only line end,
and a last one need not be. -/
inductive Splits : List (List UInt8) → List UInt8 → Prop
  | nil : Splits [] []
  | last : line ≠ [] → 10 ∉ line → Splits [line] line
  | closed : 10 ∉ body → Splits rest bytes → Splits ((body ++ [10]) :: rest) (body ++ [10] ++ bytes)

theorem lines_splits (bytes : List UInt8) : Splits (lines bytes) bytes := by
  induction bytes with
  | nil => exact .nil
  | cons b bytes ih =>
    rw [lines]
    split
    next hb =>
      subst hb
      exact .closed (show 10 ∉ [] by simp) ih
    next hb =>
      have hb : 10 ≠ b := fun h => hb h.symm
      generalize lines bytes = split at ih
      cases ih with
      | nil => exact .last (by simp) (by simpa using hb)
      | last hne hend => exact .last (by simp) (by simpa using ⟨hb, hend⟩)
      | @closed body rest bytes hend hs =>
        have hbody : 10 ∉ b :: body := by simpa using ⟨hb, hend⟩
        exact .closed hbody hs

end Text

namespace Console

variable {σ : Type} [Line σ]

/-! ## What a line shows -/

omit [Line σ] in
theorem tell_shows (b : UInt8) (text : String) (failure : Option Failure) (c : Console σ) :
    ∃ d shown, Sink.Shows (fun out => c.tell b text failure out) (.ok ()) d shown := by
  cases failure with
  | none => exact ⟨c, text, .of_print text fun hp => by simp [tell, hp]⟩
  | some cause =>
    let d := { c with link := c.link.note (.replyCutShort b cause) }
    have hprint := Sink.Shows.print text c
    refine ⟨d, _, hprint.bind (.print (failureText cause) d) fun {ω _ out out'} hp => ?_⟩
    obtain ⟨hok, hout⟩ := by simpa using hp
    have hp : Sink.print text out = (.ok (), out') := Prod.ext hok hout
    simp [tell, hp, d]

/-- What a line that is not blank leads to, if it is no wish to leave: either
it is dealt with, or the reply to it never ends, and then nothing is shown
and the sink is left alone. -/
theorem exchangeAndTell_shows (rounds : Nat) (b : UInt8) (c : Console σ) :
    (∃ step d shown, Sink.Shows (fun out => c.exchangeAndTell rounds b out) (.done step) d shown ∧ step ≠ .quit) ∨
      ∃ d, ∀ {ω : Type} [Sink ω] (out : ω), c.exchangeAndTell rounds b out = (.unfinished, d, out) := by
  rcases hs : c.send b with ⟨cause | _, c₁⟩
  · refine .inl ⟨.writeFailed b, { c₁ with link := c₁.link.note (.writeFailed b cause) }, _,
      .of_print writeFailedText fun hp => ?_, by simp⟩
    simp [exchangeAndTell, hs, hp]
  · rcases hd : c₁.drain rounds with ⟨drained, c₂⟩
    obtain ⟨d, shown, ht⟩ := tell_shows b (responseText c₂.response.bytes.toList drained.failure?) drained.failure? c₂
    cases drained with
    | unfinished => exact .inr ⟨c₂, fun out => by simp [exchangeAndTell, hs, hd]⟩
    | done _ | failed _ =>
      exact .inl ⟨.exchanged b d.response.size, d, shown, ht.map fun h => by simp [exchangeAndTell, hs, hd, h],
        by simp⟩

theorem command_shows (rounds : Nat) (text : String) (c : Console σ) :
    (∃ step d shown, Sink.Shows (fun out => c.command rounds text out) (.done step) d shown ∧ step ≠ .quit) ∨
      ∃ d, ∀ {ω : Type} [Sink ω] (out : ω), c.command rounds text out = (.unfinished, d, out) := by
  cases hb : CommandByte.parse c.policy text with
  | ok b => simpa only [command, hb] using exchangeAndTell_shows rounds b c
  | error cause =>
    exact .inl ⟨.rejected, c, _, .of_print (rejectionText cause) fun hp => by simp [command, hb, hp], by simp⟩

omit [Line σ] in
theorem prompt_shows {run : ∀ {ω : Type} [Sink ω], ω → Outcome Step × Console σ × ω} {step : Step} {d : Console σ}
    {shown : String} (h : Sink.Shows run (.done step) d shown) :
    Sink.Shows (fun out => prompt (run out)) (.done step) d (shown ++ promptText) := by
  have hprompt : Sink.Shows (fun out => prompt (.done step, d, out)) (.done step) d promptText :=
    .of_emit promptText fun he => by simp [prompt, he]
  exact h.bind hprompt fun hrun => by rw [hrun]

/-- A line is dealt with, whatever the sink is, if it works; a line that asks
to leave, and one the reply to which never ends, leaves any sink alone. -/
theorem step_shows (rounds : Nat) (line : String) (c : Console σ) :
    (∃ step d shown, Sink.Shows (fun out => c.step rounds line out) (.done step) d shown ∧ step ≠ .quit) ∨
      ∃ answer d, (answer = .done .quit ∨ answer = .unfinished) ∧
        ∀ {ω : Type} [Sink ω] (out : ω), c.step rounds line out = (answer, d, out) := by
  unfold step
  by_cases hq : Text.trim line.toList = ['q'] ∨ Text.trim line.toList = ['q', 'u', 'i', 't']
  · exact .inr ⟨.done .quit, c, .inl rfl, fun out => if_pos hq⟩
  · simp only [if_neg hq]
    by_cases hb : (Text.trim line.toList).isEmpty = true
    · simp only [if_pos hb]
      exact .inl ⟨.blank, c, _, prompt_shows (.of_const fun _ => rfl), by simp⟩
    · simp only [if_neg hb]
      obtain ⟨step, d, shown, hs, hne⟩ | ⟨d, hd⟩ := command_shows rounds (String.ofList (Text.trim line.toList)) c
      · exact .inl ⟨step, d, _, prompt_shows hs, hne⟩
      · exact .inr ⟨.unfinished, d, .inr rfl, fun out => by rw [hd, prompt]; simp⟩

/-! ## Handling lines -/

/-- A line that was handled. -/
structure Handled (σ : Type) where
  line : List UInt8
  /-- The console as the line found it. -/
  before : Console σ
  step : Step
  after : Console σ
  shown : String

/-- Handling lines one after the other leads from one console to another. -/
inductive Handles (rounds : Nat) : Console σ → List (Handled σ) → Console σ → Prop
  | nil : Handles rounds c [] c
  | cons : c.link.cancelled = false → Text.decode? line = some text →
      Sink.Shows (fun out => c.awaitLine.step rounds text out) (.done s) d shown → s ≠ .quit →
      Handles rounds d turns e →
      Handles rounds c (⟨line, c, s, d, shown⟩ :: turns) e

/-- How a session ends with these lines still to come: its answer, and the
console it leaves. -/
inductive Ends (rounds : Nat) (summary : Summary) (c : Console σ) :
    List (List UInt8) → Outcome Summary → Console σ → Prop
  | noMore : Ends rounds summary c [] (.done summary) (c.close summary)
  | asked : c.link.cancelled = true → Ends rounds summary c left (.done summary) (c.close summary)
  | quit : c.link.cancelled = false → Text.decode? line = some text →
      (∀ {ω : Type} [Sink ω] (out : ω), c.awaitLine.step rounds text out = (.done .quit, d, out)) →
      Ends rounds summary c (line :: left) (.done summary) (d.close summary)
  | notText : c.link.cancelled = false → Text.decode? line = none →
      Ends rounds summary c (line :: left) (.failed Console.notText) c.awaitLine
  | unfinished : c.link.cancelled = false → Text.decode? line = some text →
      (∀ {ω : Type} [Sink ω] (out : ω), c.awaitLine.step rounds text out = (.unfinished, d, out)) →
      Ends rounds summary c (line :: left) .unfinished d

/-- Any lines are handled up to some one that ends the session. -/
theorem handles_lines (rounds : Nat) (lines : List (List UInt8)) (c : Console σ) :
    ∃ turns left d, lines = turns.map (·.line) ++ left ∧ Handles rounds c turns d ∧
      ∀ summary, ∃ answer e, Ends rounds summary d left answer e := by
  induction lines generalizing c with
  | nil => exact ⟨[], [], c, rfl, .nil, fun summary => ⟨_, _, .noMore⟩⟩
  | cons line lines ih =>
    by_cases hc : c.link.cancelled = true
    · exact ⟨[], line :: lines, c, rfl, .nil, fun summary => ⟨_, _, .asked hc⟩⟩
    have hc : c.link.cancelled = false := Bool.of_not_eq_true hc
    cases ht : Text.decode? line with
    | none => exact ⟨[], line :: lines, c, rfl, .nil, fun summary => ⟨_, _, .notText hc ht⟩⟩
    | some text =>
      obtain ⟨s, d, shown, hs, hne⟩ | ⟨answer, d, ha, hs⟩ := step_shows rounds text c.awaitLine
      · obtain ⟨turns, left, e, rfl, hturns, hends⟩ := ih d
        exact ⟨⟨line, c, s, d, shown⟩ :: turns, left, e, rfl, .cons hc ht hs hne hturns, hends⟩
      · refine ⟨[], line :: lines, c, rfl, .nil, fun summary => ?_⟩
        obtain rfl | rfl := ha
        · exact ⟨_, _, .quit hc ht hs⟩
        · exact ⟨_, _, .unfinished hc ht hs⟩

/-! ## Sessions -/

variable {c d e : Console σ} {rounds : Nat} {turns : List (Handled σ)} {left : List (List UInt8)}
  {summary : Summary} {answer : Outcome Summary} {ω : Type} [Sink ω] {out : ω}

/-- Lines that are handled are got over, however many come after them. -/
theorem Handles.runLines (h : Handles rounds c turns d) (works : Sink.Works out) :
    ∃ out', Sink.Takes out (String.join (turns.map (·.shown))) out' ∧ ∀ left summary,
      runLines rounds (turns.map (·.line) ++ left) summary c out =
        runLines rounds left (turns.foldl (fun summary turn => summary.add turn.step) summary) d out' := by
  induction h generalizing out with
  | nil => exact ⟨out, .nothing out, fun _ _ => rfl⟩
  | cons hc ht hs _ _ ih =>
    obtain ⟨out₁, hstep, ht₁⟩ := hs.of_works works
    obtain ⟨out', ht', hrest⟩ := ih (works.leads ht₁.leads)
    refine ⟨out', by simpa using ht₁.trans ht', fun left summary => ?_⟩
    simp only [List.map_cons, List.cons_append, Console.runLines, List.foldl_cons]
    rw [← hrest, hc, if_neg Bool.false_ne_true, ht]
    simp only [hstep]

theorem Ends.runLines (h : Ends rounds summary c left answer e) (out : ω) :
    runLines rounds left summary c out = (answer, e, out) := by
  cases h with
  | noMore => rfl
  | asked hc =>
    cases left with
    | nil => rfl
    | cons line left => simp [Console.runLines, hc]
  | quit hc ht hs | unfinished hc ht hs => simp [Console.runLines, hc, ht, hs out]
  | notText hc ht => simp [Console.runLines, hc, ht]

theorem Ends.summary_eq {s : Summary} (h : Ends rounds summary c left (.done s) e) : s = summary := by
  cases h <;> rfl

/-- Only the first of the lines still to come can make a difference. -/
theorem Ends.later {line : List UInt8} (h : Ends rounds summary c (line :: left) answer e) (left' : List (List UInt8)) :
    Ends rounds summary c (line :: left') answer e := by
  cases h with
  | asked hc => exact .asked hc
  | quit hc ht hs => exact .quit hc ht hs
  | notText hc ht => exact .notText hc ht
  | unfinished hc ht hs => exact .unfinished hc ht hs

/-- Once the user has asked to stop, no line makes a difference. -/
theorem Ends.any (h : Ends rounds summary c left answer e) (hc : c.link.cancelled = true)
    (left' : List (List UInt8)) : Ends rounds summary c left' answer e := by
  cases h with
  | noMore | asked => exact .asked hc
  | quit hnot | notText hnot | unfinished hnot => simp [hc] at hnot

/-! ## What went over the line -/

/-- What a step says of the calls that were made: it tells of a byte that was
taken, and of the bytes of the reply that are kept, or of one that was not
taken, or nothing was done. -/
inductive Accounts (c d : Console σ) : Step → Prop
  | nothing : (∀ b n, s ≠ .exchanged b n) → d.link.calls = c.link.calls → d.response = c.response → Accounts c d s
  | refused : taken ≠ .ok 1 → d.link.calls.toList = c.link.calls.toList ++ [.write [b] taken] →
      d.response.capacity = c.response.capacity → Accounts c d (.writeFailed b)
  | exchanged : d.link.calls.toList = c.link.calls.toList ++ .write [b] (.ok 1) :: hs.map (.read 1) →
      d.response.capacity = c.response.capacity →
      d.response.bytes.toList = (delivered hs).take c.response.capacity → Accounts c d (.exchanged b d.response.size)

omit [Line σ] in
theorem tell_keeps {b : UInt8} {text : String} {failure : Option Failure} {out' : ω} {told}
    (h : c.tell b text failure out = (told, d, out')) : d.link.calls = c.link.calls ∧ d.response = c.response := by
  simp only [tell] at h
  split at h
  · obtain ⟨-, rfl, -⟩ := by simpa using h
    exact ⟨rfl, rfl⟩
  · split at h
    all_goals
      obtain ⟨-, rfl, -⟩ := by simpa using h
      exact ⟨rfl, rfl⟩

theorem exchangeAndTell_accounts {b : UInt8} {s : Step} {out' : ω}
    (h : c.exchangeAndTell rounds b out = (.done s, d, out')) : Accounts c d s := by
  simp only [exchangeAndTell] at h
  split at h
  next cause c₁ hs =>
    obtain ⟨taken, l', hw, -, hcalls, hr, -, ht⟩ := send_writes hs
    have ht : taken ≠ .ok 1 := fun h => absurd (ht.2 h) (by simp)
    split at h
    · simp at h
    · obtain ⟨rfl, rfl, -⟩ := by simpa using h
      exact .refused ht (by simp [hcalls, Link.write_calls hw, Link.note]) (by simp [hr, ResponseBuffer.clear])
  next c₁ hs =>
    obtain ⟨taken, l', hw, -, hcalls, hr, -, ht⟩ := send_writes hs
    obtain rfl := ht.1 rfl
    split at h
    · simp at h
    next drained c₂ _ hd =>
      obtain ⟨hs, ⟨-, hcalls'⟩, ⟨hcap, hbytes⟩, -⟩ := drain_listens hd
      split at h
      · simp at h
      next c₃ _ htell =>
        obtain ⟨rfl, rfl, -⟩ := by simpa using h
        obtain ⟨hsame, hresponse⟩ := tell_keeps htell
        rw [hr] at hcap hbytes
        have hmade : c₃.link.calls.toList = c.link.calls.toList ++ .write [b] (.ok 1) :: hs.map (.read 1) := by
          rw [hsame, hcalls', hcalls, Link.write_calls hw, List.append_assoc]
          rfl
        refine .exchanged hmade (by rw [hresponse, hcap]; rfl) ?_
        rw [hresponse, hbytes]
        simp [ResponseBuffer.clear]

theorem command_accounts {text : String} {s : Step} {out' : ω}
    (h : c.command rounds text out = (.done s, d, out')) : Accounts c d s := by
  simp only [command] at h
  split at h
  · exact exchangeAndTell_accounts h
  · split at h
    · simp at h
    · obtain ⟨rfl, rfl, -⟩ := by simpa using h
      exact .nothing (by simp) rfl rfl

omit [Line σ] in
theorem prompt_done {run : Outcome Step × Console σ × ω} {s : Step} {out' : ω}
    (h : prompt run = (.done s, d, out')) : ∃ out, run = (.done s, d, out) := by
  obtain ⟨answer, c, out⟩ := run
  cases answer with
  | failed e => simp [prompt] at h
  | unfinished => simp [prompt] at h
  | done s' =>
    simp only [prompt] at h
    split at h
    · simp at h
    · obtain ⟨rfl, rfl, -⟩ := by simpa using h
      exact ⟨out, rfl⟩

theorem step_accounts {line : String} {s : Step} {out' : ω}
    (h : c.step rounds line out = (.done s, d, out')) : Accounts c d s := by
  simp only [step] at h
  split at h
  · obtain ⟨rfl, rfl, -⟩ := by simpa using h
    exact .nothing (by simp) rfl rfl
  · split at h
    · obtain ⟨_, hrun⟩ := prompt_done h
      obtain ⟨rfl, rfl, -⟩ := by simpa using hrun
      exact .nothing (by simp) rfl rfl
    · obtain ⟨_, hrun⟩ := prompt_done h
      exact command_accounts hrun

theorem accounts_of_shows {text : String} {s : Step} {shown : String}
    (h : Sink.Shows (fun out => c.awaitLine.step rounds text out) (.done s) d shown) : Accounts c d s := by
  have hopen : ({} : BoundedSink).Open := ⟨rfl, rfl⟩
  obtain ⟨out, hrun, -⟩ := h.of_works hopen.works
  have hstep : Accounts c.awaitLine d s := step_accounts hrun
  -- waiting for a line makes no calls and keeps the reply
  cases hstep with
  | nothing hne hcalls hr => exact .nothing hne hcalls hr
  | refused ht hcalls hcap => exact .refused ht hcalls hcap
  | exchanged hcalls hcap hbytes => exact .exchanged hcalls hcap hbytes

omit [Line σ] in
theorem Accounts.capacity {s : Step} (h : Accounts c d s) : d.response.capacity = c.response.capacity := by
  cases h with
  | nothing _ _ hr => rw [hr]
  | refused _ _ hcap | exchanged _ hcap _ => exact hcap

theorem Handles.accounts (h : Handles rounds c turns d) : ∀ turn ∈ turns,
    Accounts turn.before turn.after turn.step ∧ turn.before.response.capacity = c.response.capacity := by
  induction h with
  | nil => simp
  | cons hc ht hs _ _ ih =>
    have hturn := accounts_of_shows hs
    rw [List.forall_mem_cons]
    exact ⟨⟨hturn, rfl⟩, fun turn hmem => ⟨(ih turn hmem).1, (ih turn hmem).2.trans hturn.capacity⟩⟩

/-- The calls that a line led to. -/
def Handled.calls (turn : Handled σ) : List Call :=
  turn.before.link.callsUntil turn.after.link

/-- Whether a write of one byte was answered with exactly one. -/
def Handled.wasTaken (turn : Handled σ) : Bool :=
  turn.calls.any fun
    | .write [_] (.ok 1) => true
    | _ => false

/-- What a session came to: how many bytes were taken, and how many bytes the
console kept of the replies to these. -/
def tally (turns : List (Handled σ)) : Summary :=
  let taken := turns.filter (·.wasTaken)
  ⟨taken.length, (taken.map (·.after.response.size)).sum⟩

omit [Line σ] in
/-- What a turn adds to the summary, by its calls, and what is kept of the
reply if its byte was taken: the beginning, as far as there is room. -/
theorem Handled.tells {turn : Handled σ} (h : Accounts turn.before turn.after turn.step) :
    (∀ summary : Summary, summary.add turn.step =
        if turn.wasTaken then ⟨summary.commandsSent + 1, summary.bytesReceived + turn.after.response.size⟩
        else summary) ∧
      (turn.wasTaken = true →
        turn.after.response.bytes.toList = (delivered (heardIn turn.calls)).take turn.before.response.capacity) := by
  obtain ⟨line, c, s, d, shown⟩ := turn
  have h : Accounts c d s := h
  cases h with
  | nothing hne hcalls _ =>
    have hcalls : c.link.callsUntil d.link = [] := Link.callsUntil_eq (by rw [hcalls, List.append_nil])
    refine ⟨fun summary => ?_, by simp [Handled.wasTaken, Handled.calls, hcalls]⟩
    cases s with
    | exchanged b n => exact absurd rfl (hne b n)
    | quit | blank | rejected | writeFailed _ => simp [Summary.add, Handled.wasTaken, Handled.calls, hcalls]
  | @refused taken b ht hcalls _ =>
    have hcalls := Link.callsUntil_eq hcalls
    have hnot : Handled.wasTaken ⟨line, c, .writeFailed b, d, shown⟩ = false := by
      simp only [Handled.wasTaken, Handled.calls, hcalls, List.any_cons, List.any_nil, Bool.or_false]
      split
      next heq => exact absurd (Call.write.inj heq).2 ht
      next => rfl
    simp [Summary.add, hnot]
  | @exchanged hs b hcalls _ hbytes =>
    have hcalls := Link.callsUntil_eq hcalls
    have htaken : Handled.wasTaken ⟨line, c, .exchanged b d.response.size, d, shown⟩ = true := by
      simp [Handled.wasTaken, Handled.calls, hcalls]
    refine ⟨fun summary => by simp [Summary.add, htaken], fun _ => ?_⟩
    have hheard : heardIn (.write [b] (.ok 1) :: hs.map (.read 1)) = hs := heardIn_calls b ⟨.ok 1, hs, d⟩
    rw [hbytes, Handled.calls, hcalls, hheard]

omit [Line σ] in
theorem foldl_add (h : ∀ turn ∈ turns, Accounts turn.before turn.after turn.step) (summary : Summary) :
    turns.foldl (fun summary turn => summary.add turn.step) summary =
      ⟨summary.commandsSent + (tally turns).commandsSent, summary.bytesReceived + (tally turns).bytesReceived⟩ := by
  induction turns generalizing summary with
  | nil => rfl
  | cons turn turns ih =>
    obtain ⟨hturn, hturns⟩ := List.forall_mem_cons.1 h
    rw [List.foldl_cons, ih hturns, (Handled.tells hturn).1]
    by_cases ht : turn.wasTaken = true
    · simp [tally, ht, Nat.add_assoc, Nat.add_comm 1]
    · simp [tally, ht]

/-- A session handles its lines and ends. -/
theorem Handles.run (works : Sink.Works out) {input : List UInt8}
    (hlines : Text.lines input = turns.map (·.line) ++ left) (h : Handles rounds c turns d)
    (hends : Ends rounds (turns.foldl (fun summary turn => summary.add turn.step) {}) d left answer e) :
    ∃ out', c.run rounds input out = (answer, e, out') ∧
      Sink.Takes out (bannerText ++ promptText ++ String.join (turns.map (·.shown))) out' := by
  obtain ⟨out₁, hbanner, works₁⟩ := works.print bannerText
  obtain ⟨out₂, hprompt, works₂⟩ := works₁.emit promptText
  obtain ⟨out', ht, hrest⟩ := h.runLines works₂
  refine ⟨out', ?_, ((Sink.takes_print hbanner).trans (Sink.takes_emit hprompt)).trans ht⟩
  simp only [Console.run, hbanner, hprompt, hlines]
  rw [hrest, hends.runLines]

/-- **A session is its lines, handled one after the other.** The input falls
into lines. Some of them are handled, each by the console that the one before
it left, until one asks to leave, is no text or is never answered to an end,
or until the user asks to stop or there are no more. The session answers and
leaves what these lead to. Its sink has taken the banner, the prompt and what
each line showed; its summary counts the lines that had a byte taken, and the
bytes that were kept of the replies to them. The lines not come to make no
difference. -/
theorem run_folds (works : Sink.Works out) (rounds : Nat) (input : List UInt8) (c : Console σ) :
    ∃ turns left d, Text.lines input = turns.map (·.line) ++ left ∧
      Text.Splits (Text.lines input) input ∧
      Handles rounds c turns d ∧
      Ends rounds (tally turns) d left (c.run rounds input out).1 (c.run rounds input out).2.1 ∧
      Sink.Takes out (bannerText ++ promptText ++ String.join (turns.map (·.shown))) (c.run rounds input out).2.2 ∧
      (∀ turn ∈ turns, turn.wasTaken = true →
        turn.after.response.bytes.toList = (delivered (heardIn turn.calls)).take c.response.capacity) ∧
      (∀ input' later, Text.lines input' = turns.map (·.line) ++ later → d.link.cancelled = true →
        c.run rounds input' out = c.run rounds input out) ∧
      ∀ input' line rest later, left = line :: rest → Text.lines input' = turns.map (·.line) ++ line :: later →
        c.run rounds input' out = c.run rounds input out := by
  obtain ⟨out₁, hbanner, works₁⟩ := works.print bannerText
  obtain ⟨out₂, hprompt, works₂⟩ := works₁.emit promptText
  have hrun : ∀ input, c.run rounds input out = runLines rounds (Text.lines input) {} c out₂ := fun input => by
    simp [run, hbanner, hprompt]
  obtain ⟨turns, left, d, hlines, hturns, hends⟩ := handles_lines rounds (Text.lines input) c
  obtain ⟨out', ht, hrest⟩ := hturns.runLines works₂
  have haccounts := hturns.accounts
  have htally : turns.foldl (fun summary turn => summary.add turn.step) {} = tally turns := by
    rw [foldl_add fun turn hmem => (haccounts turn hmem).1]
    simp
  obtain ⟨answer, e, hend⟩ := hends (tally turns)
  have hanswer : ∀ input' left', Text.lines input' = turns.map (·.line) ++ left' →
      Ends rounds (tally turns) d left' answer e → c.run rounds input' out = (answer, e, out') := by
    intro input' left' hl he
    rw [hrun, hl, hrest, htally, he.runLines]
  rw [hanswer input left hlines hend]
  refine ⟨turns, left, d, hlines, Text.lines_splits input, hturns, hend, ?_, fun turn hmem htaken => ?_,
    fun input' later hl hc => ?_, fun input' line rest later hleft hl => ?_⟩
  · exact ((Sink.takes_print hbanner).trans (Sink.takes_emit hprompt)).trans ht
  · obtain ⟨haccount, hcap⟩ := haccounts turn hmem
    rw [← hcap]
    exact (Handled.tells haccount).2 htaken
  · exact hanswer input' later hl (hend.any hc later)
  · subst hleft
    exact hanswer input' _ hl (hend.later later)

/-- A console with room for two bytes, on a line that answers every byte with
that byte and three more. -/
def talkative : Console ScriptedLine where
  link := { line := { replies := fun b => [[.piece [b, 1, 2, 3]]] } }
  policy := .strict
  response := ⟨#[], 2, by decide⟩

/-- Two commands with a blank line between them, and one after the wish to
leave. -/
def typed : List UInt8 :=
  "10\n\n11\nq\n12\n".toUTF8.data.toList

theorem talkative_folds :
    ∃ turns : List (Handled ScriptedLine), tally turns = ⟨2, 4⟩ ∧
      (talkative.run 8 typed ({} : BoundedSink)).2.2.offered =
        bannerText ++ promptText ++ String.join (turns.map (·.shown)) := by
  have hopen : ({} : BoundedSink).Open := ⟨rfl, rfl⟩
  obtain ⟨turns, left, d, -, -, -, hends, ht, -⟩ := run_folds hopen.works 8 typed talkative
  refine ⟨turns, ?_, by simpa using congrArg BoundedSink.offered (hopen.takes ht)⟩
  rw [show (talkative.run 8 typed ({} : BoundedSink)).1 = .done ⟨2, 4⟩ by rfl] at hends
  exact hends.summary_eq.symm

end Console
end MemsProbe
