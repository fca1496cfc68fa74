/-
A sink that fails only shortens a run.

Every part of the program that writes truncates in the sense of
Proofs/Truncation: the loop of reads, which goes on after a read that failed
but not after a write that did; the console, which tolerates everything
else; and with them a whole run. `run_shortened` says it of a run in terms
of the bytes that were kept, the calls that were made and the answer.
-/
import MemsProbe.Proofs.Disconnected
import MemsProbe.Proofs.Truncation
import MemsProbe.Proofs.WireLanguage

namespace MemsProbe

open BoundedSink

section

variable {σ : Type}

def Client.calls (c : Client σ) : List Call :=
  c.link.calls.toList

def Console.calls (c : Console σ) : List Call :=
  c.link.calls.toList

theorem Link.Makes.extends {l l' : Link σ} {made : List Attempt} (h : l.Makes made l') :
    l.calls.toList <+: l'.calls.toList := by
  obtain ⟨calls, hcalls, -⟩ := h
  exact ⟨calls, hcalls.symm⟩

theorem Client.Performs.extends {c c' : Client σ} {script : List UInt8} (h : c.Performs script c') :
    c.calls <+: c'.calls := by
  obtain ⟨made, hmakes, -⟩ := h
  exact hmakes.1.extends

end

/-! ## The console -/

namespace Console

variable {σ : Type}

theorem tell_truncates (b : UInt8) (text : String) (failure : Option Failure) (c : Console σ) :
    Truncates (· = .error refusal) calls c.calls fun out => c.tell b text failure out := by
  cases failure with
  | none =>
    have hdone : Truncates (· = .error refusal) calls c.calls fun out => (Except.ok (), c, out) :=
      .of_const _ c List.prefix_rfl fun _ => rfl
    exact .after_print text c .error rfl hdone (fun hp => by simp only [tell, hp]) fun hp => by simp only [tell, hp]
  | some cause =>
    have hcause : Truncates (· = .error refusal) calls c.calls fun out =>
        ((Sink.print (failureText cause) out).1, { c with link := c.link.note (.replyCutShort b cause) },
          (Sink.print (failureText cause) out).2) :=
      .print _ { c with link := c.link.note (.replyCutShort b cause) }
    exact .after_print text c .error rfl hcause (fun hp => by simp only [tell, hp]) fun hp => by simp only [tell, hp]

/-- The next prompt is shown unless there was a refusal before it. -/
theorem prompt_truncates {start : List Call} {run : BoundedSink → Outcome Step × Console σ × BoundedSink}
    (h : Truncates (· = .failed refusal) calls start run) :
    Truncates (· = .failed refusal) calls start fun out => prompt (run out) := by
  refine h.bind (fun answer c out => prompt (answer, c, out)) (fun answer c => ?_) (fun answer c hrefused => ?_)
    fun hrun => by rw [hrun]
  · cases answer with
    | done step =>
      have hdone : Truncates (· = .failed refusal) calls c.calls fun out => (Outcome.done step, c, out) :=
        .of_const _ c List.prefix_rfl fun _ => rfl
      exact .after_emit promptText c .failed rfl hdone (fun hp => by simp only [prompt, hp])
        fun hp => by simp only [prompt, hp]
    | failed e => exact .of_const (.failed e) c List.prefix_rfl fun _ => rfl
    | unfinished => exact .of_const .unfinished c List.prefix_rfl fun _ => rfl
  · obtain rfl := hrefused
    exact ⟨_, c, rfl, rfl, fun _ => rfl⟩

variable [Line σ]

/-- What is answered when it has been told what came of a byte. -/
def answerTold (b : UInt8) : Except Failure Unit → Console σ → BoundedSink → Outcome Step × Console σ × BoundedSink
  | .error e, c, out => (.failed e, c, out)
  | .ok (), c, out => (.done (.exchanged b c.response.size), c, out)

/-- Whatever became of the byte, a refusal of what is shown of it is passed
on. -/
theorem exchangeAndTell_truncates (rounds : Nat) (b : UInt8) (c : Console σ) :
    Truncates (· = .failed refusal) calls c.calls fun out => c.exchangeAndTell rounds b out := by
  cases hs : c.send b with | mk answer c₁ =>
  cases answer with
  | error cause =>
    obtain ⟨_, hmakes, -⟩ := send_makes hs
    let told : Console σ := { c₁ with link := c₁.link.note (.writeFailed b cause) }
    have hdone : Truncates (· = .failed refusal) calls told.calls fun out =>
        (Outcome.done (Step.writeFailed b), told, out) := .of_const _ told List.prefix_rfl fun _ => rfl
    have htold : Truncates (· = .failed refusal) calls told.calls fun out => c.exchangeAndTell rounds b out :=
      .after_print writeFailedText told .failed rfl hdone (fun hp => by simp only [exchangeAndTell, hs, hp, told])
        fun hp => by simp only [exchangeAndTell, hs, hp, told]
    exact htold.weaken hmakes.1.extends
  | ok _ =>
    cases hd : c₁.drain rounds with | mk drained c₂ =>
    obtain ⟨_, hmakes, -⟩ := send_drain_makes hs hd
    refine .weaken ?_ hmakes.1.extends
    have htell := tell_truncates b (responseText c₂.response.bytes.toList drained.failure?) drained.failure? c₂
    by_cases hu : drained = .unfinished
    · subst hu
      exact .of_const .unfinished c₂ List.prefix_rfl fun _ => by simp only [exchangeAndTell, hs, hd]
    refine htell.bind (answerTold b) (fun answer c => ?_) (fun answer c hrefused => ?_)
      (fun {out answer c out'} htold => ?_)
    · cases answer with
      | error e => exact .of_const (.failed e) c List.prefix_rfl fun _ => rfl
      | ok _ => exact .of_const (.done (.exchanged b c.response.size)) c List.prefix_rfl fun _ => rfl
    · obtain rfl := hrefused
      exact ⟨_, c, rfl, rfl, fun _ => rfl⟩
    · cases drained with
      | unfinished => exact absurd rfl hu
      | done _ | failed _ =>
        simp only [exchangeAndTell, hs, hd, htold]
        cases answer <;> rfl

theorem command_truncates (rounds : Nat) (text : String) (c : Console σ) :
    Truncates (· = .failed refusal) calls c.calls fun out => c.command rounds text out := by
  cases hb : CommandByte.parse c.policy text with
  | ok b =>
    have hcommand : (fun out : BoundedSink => c.command rounds text out) =
        fun out => c.exchangeAndTell rounds b out := by
      funext out
      simp only [command, hb]
    rw [hcommand]
    exact exchangeAndTell_truncates rounds b c
  | error cause =>
    have hdone : Truncates (· = .failed refusal) calls c.calls fun out => (Outcome.done Step.rejected, c, out) :=
      .of_const _ c List.prefix_rfl fun _ => rfl
    exact .after_print (rejectionText cause) c .failed rfl hdone (fun hp => by simp only [command, hb, hp])
      fun hp => by simp only [command, hb, hp]

theorem step_truncates (rounds : Nat) (line : String) (c : Console σ) :
    Truncates (· = .failed refusal) calls c.calls fun out => c.step rounds line out := by
  simp only [step]
  split
  · exact .of_const (.done .quit) c List.prefix_rfl fun _ => rfl
  · split
    · exact prompt_truncates (.of_const (.done .blank) c List.prefix_rfl fun _ => rfl)
    · exact prompt_truncates (command_truncates rounds _ c)

/-- What a session does when a line has been handled. -/
def afterStep (rounds : Nat) (lines : List (List UInt8)) (summary : Summary) :
    Outcome Step → Console σ → BoundedSink → Outcome Summary × Console σ × BoundedSink
  | .failed e, c, out => (.failed e, c, out)
  | .unfinished, c, out => (.unfinished, c, out)
  | .done .quit, c, out => (.done summary, c.close summary, out)
  | .done step, c, out => runLines rounds lines (summary.add step) c out

theorem runLines_truncates (rounds : Nat) (lines : List (List UInt8)) (summary : Summary) (c : Console σ) :
    Truncates (· = .failed refusal) calls c.calls fun out => runLines rounds lines summary c out := by
  induction lines generalizing summary c with
  | nil => exact .of_const (.done summary) (c.close summary) List.prefix_rfl fun _ => rfl
  | cons line lines ih =>
    by_cases hc : c.link.cancelled = true
    · exact .of_const (.done summary) (c.close summary) List.prefix_rfl fun _ => by simp only [runLines, hc, if_true]
    cases ht : Text.decode? line with
    | none => exact .of_const (.failed notText) c.awaitLine List.prefix_rfl fun _ => by simp [runLines, hc, ht]
    | some text =>
      refine (step_truncates rounds text c.awaitLine).bind (afterStep rounds lines summary) (fun answer c => ?_)
        (fun answer c hrefused => ?_) (fun {out answer c out'} hstep => ?_)
      · cases answer with
        | failed e => exact .of_const (.failed e) c List.prefix_rfl fun _ => rfl
        | unfinished => exact .of_const .unfinished c List.prefix_rfl fun _ => rfl
        | done step =>
          cases step with
          | quit => exact .of_const (.done summary) (c.close summary) List.prefix_rfl fun _ => rfl
          | blank | rejected | writeFailed _ | exchanged _ _ => exact ih _ c
      · obtain rfl := hrefused
        exact ⟨_, c, rfl, rfl, fun _ => rfl⟩
      · simp only [runLines, hc, ht, hstep]
        cases answer with
        | failed e => rfl
        | unfinished => rfl
        | done step => cases step <;> rfl

theorem run_truncates (rounds : Nat) (input : List UInt8) (c : Console σ) :
    Truncates (· = .failed refusal) calls c.calls fun out => run rounds input c out := by
  have hlines := runLines_truncates rounds (Text.lines input) {} c
  have hprompt : Truncates (· = .failed refusal) calls c.calls fun out =>
      match Sink.emit promptText out with
      | (.error e, out) => (.failed e, c, out)
      | (.ok (), out) => runLines rounds (Text.lines input) {} c out :=
    .after_emit promptText c .failed rfl hlines (fun hp => by simp only [hp]) fun hp => by simp only [hp]
  refine .after_print bannerText c .failed rfl hprompt (fun hp => by simp only [run, hp]) fun {_ out'} hp => ?_
  simp only [run, hp]
  obtain ⟨_ | _, _⟩ := Sink.emit promptText out' <;> rfl

end Console

/-! ## Commands -/

namespace Diagnostics

variable {σ α : Type} [Line σ]

/-- A read that failed is skipped, a write that was refused is not. -/
theorem readLoop_truncates {fetch : Client σ → Except Failure α × Client σ} {script : List UInt8}
    (hf : ∀ {c c' : Client σ} {a}, c.connected = true → fetch c = (a, c') → c.Performs script c')
    (render : α → String) (count : ReadCount) (rounds : Nat) (t : Tally) {c : Client σ} (hc : c.connected = true) :
    Truncates (· = .failed refusal) Client.calls c.calls fun out => readLoop fetch render count rounds t c out := by
  induction rounds generalizing t c with
  | zero => exact .of_const .unfinished c List.prefix_rfl fun _ => rfl
  | succ rounds ih =>
    by_cases henough : isEnough count t.reads = true
    · exact .of_const (.ofExcept t.result) (c.note (.readsSucceeded t.succeeded t.reads)) List.prefix_rfl
        fun _ => by simp only [readLoop, henough, if_true, finish]
    by_cases hcancelled : c.cancelled = true
    · refine .of_const _ _ ?_ fun _ => by simp only [readLoop, henough, hcancelled, if_true, finish]; rfl
      exact List.prefix_rfl
    cases hfetch : fetch c with | mk answer c₁ =>
    have hperforms := hf hc hfetch
    have hc₁ := hperforms.connected hc
    cases answer with
    | ok a =>
      have hrest := ih { t with reads := t.reads + 1, succeeded := t.succeeded + 1 } hc₁
      have hshown : Truncates (· = .failed refusal) Client.calls c₁.calls fun out =>
          readLoop fetch render count (rounds + 1) t c out :=
        .after_emit (render a) c₁ .failed rfl hrest
          (fun hp => by simp [readLoop, henough, hcancelled, hfetch, hp])
          fun hp => by simp [readLoop, henough, hcancelled, hfetch, hp]
      exact hshown.weaken hperforms.extends
    | error e =>
      have hrest := ih (c := c₁.note (.readFailed (t.reads + 1) e))
        { t with reads := t.reads + 1, lastFailure := some e } hc₁
      have hskip : (fun out : BoundedSink => readLoop fetch render count (rounds + 1) t c out) = fun out =>
          readLoop fetch render count rounds { t with reads := t.reads + 1, lastFailure := some e }
            (c₁.note (.readFailed (t.reads + 1) e)) out := by
        funext out
        simp [readLoop, henough, hcancelled, hfetch]
      rw [hskip]
      exact hrest.weaken hperforms.extends

theorem readPosition_truncates (format : OutputFormat) {c : Client σ} (hc : c.connected = true) :
    Truncates (· = .failed refusal) Client.calls c.calls fun out => readPosition format c out := by
  cases hr : c.readIacPosition with | mk answer c₁ =>
  have hextends := (Client.readIacPosition_performs hc hr).extends
  cases answer with
  | error e => exact .of_const (.failed e) c₁ hextends fun _ => by simp only [readPosition, hr]
  | ok position =>
    have hdone : Truncates (· = .failed refusal) Client.calls c₁.calls fun out => (Outcome.done (), c₁, out) :=
      .of_const _ c₁ List.prefix_rfl fun _ => rfl
    have hshown : Truncates (· = .failed refusal) Client.calls c₁.calls fun out => readPosition format c out :=
      .after_print (positionText format position) c₁ .failed rfl hdone (fun hp => by simp only [readPosition, hr, hp])
        fun hp => by simp only [readPosition, hr, hp]
    exact hshown.weaken hextends

omit [Line σ] in
/-- An actuator test shows nothing. -/
theorem ofActuation_truncates {c : Client σ} {made : Outcome ActuationReport × Client σ}
    (h : c.calls <+: made.2.calls) :
    Truncates (· = .failed refusal) Client.calls c.calls fun out => ofActuation out made := by
  obtain ⟨answer, c'⟩ := made
  cases answer with
  | done r => exact .of_const (.done ()) (report r c') h fun _ => rfl
  | failed e => exact .of_const (.failed e) c' h fun _ => rfl
  | unfinished => exact .of_const .unfinished c' h fun _ => rfl

theorem interactive_truncates (settings : ConsoleSettings) (rounds : Nat) (input : List UInt8) (c : Client σ) :
    Truncates (· = .failed refusal) Client.calls c.calls fun out => interactive settings rounds input c out := by
  cases hs : Console.start settings c.link with
  | error failed =>
    obtain ⟨e, link⟩ := failed
    exact .of_const (.failed e) { c with link } (Console.start_error_makes hs).extends
      fun _ => by simp only [interactive, hs]
  | ok console =>
    have hsession := (Console.run_truncates rounds input console).weaken (Console.start_makes hs).1.extends
    refine hsession.bind (fun answer console out =>
      match answer with
      | .done _ => (.done (), { c with link := console.link }, out)
      | .failed e => (.failed e, { c with link := console.link }, out)
      | .unfinished => (.unfinished, { c with link := console.link }, out)) (fun answer console => ?_)
      (fun answer console hrefused => ?_) (fun {out answer console' out'} hrun => ?_)
    · cases answer with
      | done _ => exact .of_const (.done ()) { c with link := console.link } List.prefix_rfl fun _ => rfl
      | failed e => exact .of_const (.failed e) { c with link := console.link } List.prefix_rfl fun _ => rfl
      | unfinished => exact .of_const .unfinished { c with link := console.link } List.prefix_rfl fun _ => rfl
    · obtain rfl := hrefused
      exact ⟨_, { c with link := console.link }, rfl, rfl, fun _ => rfl⟩
    · simp only [interactive, hs, hrun]
      cases answer <;> rfl

theorem execute_truncates (options : RunOptions) (rounds : Nat) (command : Command) (input : List UInt8)
    {c : Client σ} (hc : c.connected = true) :
    Truncates (· = .failed refusal) Client.calls c.calls fun out =>
      execute options rounds command input c out := by
  cases command with
  | read => exact readLoop_truncates (fun hc => Client.readData_performs hc) _ _ rounds {} hc
  | readRaw => exact readLoop_truncates (fun hc => Client.readRaw_performs hc) _ _ rounds {} hc
  | readIac => exact readPosition_truncates options.outputFormat hc
  | ptc | fuelPump | ac =>
    exact ofActuation_truncates (Actuation.toggleRelay_performs hc (Prod.eta (Actuation.toggleRelay _ c)).symm).extends
  | iacClose =>
    obtain ⟨n, hperforms⟩ :=
      Actuation.closeFrom_performs hc (Prod.eta (Actuation.closeIac rounds options.closeLimit c)).symm
    exact ofActuation_truncates hperforms.extends
  | iacOpen =>
    obtain ⟨n, hperforms⟩ := Actuation.openFrom_performs hc (Prod.eta (Actuation.openIac rounds c)).symm
    exact ofActuation_truncates hperforms.extends
  | coil | injectors =>
    exact ofActuation_truncates (Actuation.singleShot_performs hc (Prod.eta (Actuation.singleShot _ c)).symm).extends
  | interactive => exact interactive_truncates options.console rounds input c

/-! ## A whole run -/

theorem wakeAndExecute_truncates (options : RunOptions) (rounds : Nat) (command : Command) (input : List UInt8)
    {c : Client σ} (hc : c.connected = true) :
    Truncates (· = .failed refusal) Client.calls c.calls fun out =>
      wakeAndExecute options rounds command input c out := by
  cases hi : c.initLink with | mk answer c₁ =>
  obtain ⟨wake, hmakes, -⟩ := Client.initLink_made hc hi
  have hextends : c.calls <+: c₁.calls := hmakes.1.extends
  cases answer with
  | error e => exact .of_const (.failed e) c₁ hextends fun _ => by simp only [wakeAndExecute, hi]
  | ok id =>
    have hcommand := execute_truncates options rounds command input (hmakes.connected hc)
    have hshown : Truncates (· = .failed refusal) Client.calls c₁.calls fun out =>
        wakeAndExecute options rounds command input c out :=
      .after_print (headerText id.toList) c₁ .failed rfl hcommand (fun hp => by simp only [wakeAndExecute, hi, hp])
        fun hp => by simp only [wakeAndExecute, hi, hp]
    exact hshown.weaken hextends

/-- What a run does when its command has come to an end. -/
def hangUp : Outcome Unit → Client σ → BoundedSink → Outcome Unit × Client σ × BoundedSink
  | .unfinished, c, out => (.unfinished, c, out)
  | ended, c, out => (ended, c.disconnect, out)

theorem run_truncates (options : RunOptions) (rounds : Nat) (command : Command) (input : List UInt8)
    (c : Client σ) :
    Truncates (· = .failed refusal) Client.calls c.calls fun out => run options rounds command input c out := by
  by_cases hc : c.connected = true
  · refine (wakeAndExecute_truncates options rounds command input hc).bind hangUp (fun answer c => ?_)
      (fun answer c hrefused => ?_) (fun {out answer c' out'} hw => ?_)
    · have hkeeps : c.disconnect.calls = c.calls := congrArg Array.toList c.disconnect_calls
      cases answer with
      | unfinished => exact .of_const .unfinished c List.prefix_rfl fun _ => rfl
      | done v => exact .of_const (.done v) c.disconnect (hkeeps ▸ List.prefix_rfl) fun _ => rfl
      | failed e => exact .of_const (.failed e) c.disconnect (hkeeps ▸ List.prefix_rfl) fun _ => rfl
    · obtain rfl := hrefused
      exact ⟨_, c.disconnect, rfl, congrArg Array.toList c.disconnect_calls, fun _ => rfl⟩
    · simp only [run, hw]
      cases answer <;> rfl
  · have hc : c.connected = false := by simpa using hc
    exact .of_const _ c List.prefix_rfl fun out => run_disconnected hc ⟨options, rounds, command, input, out⟩

/-- **A failing sink only shortens a run.** Take a run that ends when its sink
takes everything, and the same run with a sink that has room for so many
bytes and refuses the rest. The second keeps just the beginning of the text
of the first that there is room for, and its calls and pauses are a beginning
of those of the first. If there is room for all of it, the answer and the
client are the same; if there is not, the run fails with the refusal. Both
leave the client disconnected. -/
theorem run_shortened (options : RunOptions) (rounds : Nat) (command : Command) (input : List UInt8)
    (c : Client σ) (limit : Nat)
    (ended : (run options rounds command input c ({} : BoundedSink)).1 ≠ .unfinished) :
    let full := run options rounds command input c ({} : BoundedSink)
    let short := run options rounds command input c ({ limit := some limit } : BoundedSink)
    short.2.2.kept = full.2.2.kept.extract 0 (min limit full.2.2.kept.size) ∧
      short.2.1.link.calls.toList <+: full.2.1.link.calls.toList ∧
      (full.2.2.kept.size ≤ limit → short.1 = full.1 ∧ short.2.1 = full.2.1) ∧
      (limit < full.2.2.kept.size → short.1 = .failed (.io "output closed")) ∧
      full.2.1.connected = false ∧ short.2.1.connected = false := by
  have hdisconnects := run_disconnects ended
  obtain ⟨a, k, text, hfull, -, hlimit⟩ := run_truncates options rounds command input c ""
  have hshort : Shortened (· = .failed refusal) Client.calls limit "" text a k
      (run options rounds command input c (narrow limit "")) := hlimit limit (Nat.zero_le limit)
  rw [String.empty_append] at hfull
  have hfull : run options rounds command input c ({} : BoundedSink) = (a, k, wide text) := hfull
  have hsize : (wide text).kept.size = text.utf8ByteSize := congrArg ByteArray.size (kept_wide text)
  have hleft : (run options rounds command input c (narrow limit "")).1 ≠ .unfinished →
      (run options rounds command input c (narrow limit "")).2.1.connected = false := run_disconnects
  have hnarrow : run options rounds command input c ({ limit := some limit } : BoundedSink) =
      run options rounds command input c (narrow limit "") := rfl
  rw [hfull] at hdisconnects ended ⊢
  dsimp only at hdisconnects ended ⊢
  rw [hnarrow, hsize, kept_wide]
  generalize run options rounds command input c (narrow limit "") = short at hshort hleft
  cases hshort with
  | whole hwhole =>
    rw [String.empty_append] at hwhole ⊢
    have hkept : (narrow limit text).kept = text.toUTF8.extract 0 (min limit text.utf8ByteSize) := by
      have hall : text.toUTF8.extract 0 text.utf8ByteSize = text.toUTF8 := extract_of_size_le (Nat.le_refl _)
      rw [kept_narrow, Nat.min_eq_right hwhole, hall]
      exact extract_of_size_le hwhole
    exact ⟨hkept, List.prefix_rfl, fun _ => ⟨rfl, rfl⟩, fun hfull => absurd hfull (Nat.not_lt.2 hwhole),
      hdisconnects, hdisconnects⟩
  | @cut b j kept rest htext hroom hrefused hprefix =>
    rw [String.empty_append] at hroom ⊢
    have hsizes : text.utf8ByteSize = kept.utf8ByteSize + rest.utf8ByteSize := by
      rw [htext, String.utf8ByteSize_append]
    have hkept : (narrow limit kept).kept = text.toUTF8.extract 0 (min limit text.utf8ByteSize) := by
      rw [kept_narrow, Nat.min_eq_left (by omega), htext, extract_first rest (by omega)]
    have hended : b ≠ .unfinished := by
      rw [hrefused]
      nofun
    exact ⟨hkept, hprefix, fun hfits => absurd hfits (by omega), fun _ => hrefused, hdisconnects, hleft hended⟩

/-- There is room for the reply to the first of two bytes that are typed, but
not for the prompt after it: the second is never offered. -/
theorem wakeful_shortened :
    let full := run {} 8 .interactive "10\n20\n".toUTF8.toList wakeful ({} : BoundedSink)
    let short := run {} 8 .interactive "10\n20\n".toUTF8.toList wakeful ({ limit := some 89 } : BoundedSink)
    full.2.2.kept.size = 97 ∧ short.1 = .failed (.io "output closed") ∧
      short.2.1.link.calls.toList <+: full.2.1.link.calls.toList ∧
      (attempts short.2.1.link.calls.toList).map (·.offered) = [[0xCA], [0x75], [0xD0], [0x10]] := by
  have ended : (run {} 8 .interactive "10\n20\n".toUTF8.toList wakeful ({} : BoundedSink)).1 ≠ .unfinished := by
    decide +kernel
  have hsize : (run {} 8 .interactive "10\n20\n".toUTF8.toList wakeful ({} : BoundedSink)).2.2.kept.size = 97 := by
    rw [BoundedSink.kept, ByteArray.size_extract]
    decide +kernel
  obtain ⟨-, hprefix, -, hrefused, -⟩ := run_shortened {} 8 .interactive "10\n20\n".toUTF8.toList wakeful 89 ended
  exact ⟨hsize, hrefused (by rw [hsize]; decide), hprefix, by decide +kernel⟩

end Diagnostics

end MemsProbe
