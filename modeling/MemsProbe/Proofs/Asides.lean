/-
Lines that are nothing to the ECU.

An aside is a line that is blank or stands for no command byte, and does not
ask to leave. It has its text shown and changes nothing else. Where more of
them stand between the lines of an input (`Interspersed`), the lines that were
there before are handled by the same consoles as before, and the session comes
to the same end (`Handles.amid`): only asides are added to what is handled.

The user must not take the time to ask to stop, or a line more to be typed
would be one more chance for that. So the line to the ECU is one that stays as
it is while the user types; it may bring the wish to stop with any call.
-/
import MemsProbe.Proofs.Handling
import MemsProbe.Proofs.HexPolicies
import MemsProbe.Proofs.Steps

namespace MemsProbe

/-! ## More entries in a list -/

/-- The second list is the first with further entries among its own. -/
inductive Amid {α : Type} (further : α → Prop) : List α → List α → Prop
  | nil : Amid further [] []
  | own : Amid further entries more → Amid further (a :: entries) (a :: more)
  | further : further a → Amid further entries more → Amid further entries (a :: more)

theorem Amid.refl {α : Type} {further : α → Prop} (entries : List α) : Amid further entries entries := by
  induction entries with
  | nil => exact .nil
  | cons a entries ih => exact ih.own

/-! ## Asides -/

/-- The line is closed by its only line end. -/
def Text.Closed (line : List UInt8) : Prop :=
  ∃ body, 10 ∉ body ∧ line = body ++ [10]

theorem Text.Closed.lines {line : List UInt8} (h : Closed line) (bytes : List UInt8) :
    lines (line ++ bytes) = line :: lines bytes := by
  obtain ⟨body, hbody, rfl⟩ := h
  induction body with
  | nil => simp [Text.lines]
  | cons b body ih =>
    rw [List.mem_cons, not_or] at hbody
    have hb : b ≠ 10 := fun heq => hbody.1 heq.symm
    simp only [List.cons_append, Text.lines, if_neg hb, ih hbody.2]

/-- The line is an aside, and this is shown for it. -/
inductive Aside (policy : HexPolicy) : List UInt8 → String → Prop
  | blank : Text.Closed line → Text.decode? line = some text → Text.trim text.toList = [] →
      Aside policy line Console.promptText
  | rejected : Text.Closed line → Text.decode? line = some text → Text.trim text.toList ≠ [] → ¬ AsksToLeave text →
      CommandByte.parse policy (String.ofList (Text.trim text.toList)) = .error cause →
      Aside policy line (Console.rejectionText cause ++ Console.promptText)

theorem Aside.closed {policy : HexPolicy} {line : List UInt8} {shown : String} (h : Aside policy line shown) :
    Text.Closed line := by
  cases h <;> assumption

/-- The second input is the first with asides between its lines. -/
inductive Interspersed (policy : HexPolicy) : List UInt8 → List UInt8 → Prop
  | same : Interspersed policy input input
  | line : Text.Closed line → Interspersed policy input more → Interspersed policy (line ++ input) (line ++ more)
  | aside : Aside policy line shown → Interspersed policy input more → Interspersed policy input (line ++ more)

theorem Interspersed.lines {policy : HexPolicy} {input more : List UInt8} (h : Interspersed policy input more) :
    Amid (fun line => ∃ shown, Aside policy line shown) (Text.lines input) (Text.lines more) := by
  induction h with
  | same => exact .refl _
  | line hclosed _ ih =>
    rw [hclosed.lines, hclosed.lines]
    exact ih.own
  | aside haside _ ih =>
    rw [haside.closed.lines]
    exact ih.further ⟨_, haside⟩

namespace Console

variable {σ : Type} [Line σ] {c d : Console σ} {rounds : Nat} {line : List UInt8} {shown : String}

/-- An aside has its text shown, and nothing else comes of it. -/
theorem shows_of_aside (rounds : Nat) (h : Aside c.policy line shown) :
    ∃ text s, Text.decode? line = some text ∧ (s = .blank ∨ s = .rejected) ∧
      Sink.Shows (fun out => c.step rounds text out) (.done s) c shown := by
  cases h with
  | @blank text _ htext hblank =>
    refine ⟨text, .blank, htext, .inl rfl, ?_⟩
    have hprompt : Sink.Shows (fun out => prompt (.done .blank, c, out)) (.done .blank) c ("" ++ promptText) :=
      prompt_shows (.of_const fun _ => rfl)
    rw [String.empty_append] at hprompt
    exact hprompt.map fun hrun => (step_blank hblank ..).trans hrun
  | @rejected text cause _ htext hne hleave hparse =>
    refine ⟨text, .rejected, htext, .inr rfl, ?_⟩
    have hcommand : Sink.Shows (fun out => c.command rounds (String.ofList (Text.trim text.toList)) out)
        (.done .rejected) c (rejectionText cause) :=
      .of_print (rejectionText cause) fun hp => by simp [command, hparse, hp]
    exact (prompt_shows hcommand).map fun hrun => (step_command hleave hne ..).trans hrun

theorem policy_of_shows {text : String} {s : Step}
    (h : Sink.Shows (fun out => c.awaitLine.step rounds text out) (.done s) d shown) : d.policy = c.policy := by
  have hopen : ({} : BoundedSink).Open := ⟨rfl, rfl⟩
  obtain ⟨out, hrun, -⟩ := h.of_works hopen.works
  have hpolicy := step_policy rounds text c.awaitLine ({} : BoundedSink)
  rwa [hrun] at hpolicy

/-- The line handled is an aside, and the console was left as it was. -/
structure Handled.IsAside (policy : HexPolicy) (turn : Handled σ) : Prop where
  aside : Aside policy turn.line turn.shown
  step : turn.step = .blank ∨ turn.step = .rejected
  after : turn.after = turn.before

omit [Line σ] in
/-- Asides are not counted. -/
theorem foldl_amid {policy : HexPolicy} {turns turns' : List (Handled σ)} (h : Amid (Handled.IsAside policy) turns turns')
    (summary : Summary) :
    turns'.foldl (fun summary turn => summary.add turn.step) summary =
      turns.foldl (fun summary turn => summary.add turn.step) summary := by
  induction h generalizing summary with
  | nil => rfl
  | own _ ih => exact ih _
  | further haside _ ih =>
    rw [List.foldl_cons, ih]
    rcases haside.step with hs | hs
    · rw [hs]
      rfl
    · rw [hs]
      rfl

theorem awaitLine_of_quiet (quiet : ∀ s : σ, Line.idle s = s) (c : Console σ) : c.awaitLine = c := by
  simp only [awaitLine, Link.idle, quiet]

/-- Lines with asides among them are handled as they are without, and the
session ends in the same way. -/
theorem Handles.amid {policy : HexPolicy} {lines more left : List (List UInt8)} {turns : List (Handled σ)}
    {summary : Summary} {answer : Outcome Summary} {e : Console σ} (quiet : ∀ s : σ, Line.idle s = s)
    (hamid : Amid (fun line => ∃ shown, Aside policy line shown) lines more) (hpolicy : c.policy = policy)
    (hlines : lines = turns.map (·.line) ++ left) (h : Handles rounds c turns d)
    (hends : Ends rounds summary d left answer e) :
    ∃ turns' left', more = turns'.map (·.line) ++ left' ∧ Handles rounds c turns' d ∧
      Ends rounds summary d left' answer e ∧ Amid (Handled.IsAside policy) turns turns' := by
  induction hamid generalizing c turns with
  | nil =>
    obtain ⟨hnone, rfl⟩ := List.append_eq_nil_iff.1 hlines.symm
    obtain rfl := List.map_eq_nil_iff.1 hnone
    exact ⟨[], [], rfl, h, hends, .nil⟩
  | @own entries more line _ ih =>
    cases h with
    | nil =>
      obtain rfl : line :: entries = left := hlines
      exact ⟨[], line :: more, rfl, .nil, hends.later more, .nil⟩
    | cons hc htext hs hne hrest =>
      obtain ⟨rfl, hentries⟩ := List.cons.inj hlines
      obtain ⟨turns', left', rfl, hturns, hends', hamid⟩ := ih ((policy_of_shows hs).trans hpolicy) hentries hrest
      exact ⟨_ :: turns', left', rfl, .cons hc htext hs hne hturns, hends', hamid.own⟩
  | @further line _ more haside _ ih =>
    by_cases hc : c.link.cancelled = true
    · cases h with
      | nil => exact ⟨[], line :: more, rfl, .nil, hends.any hc _, .nil⟩
      | cons hnot => simp [hc] at hnot
    -- The console that comes to the aside goes on from it unchanged.
    have hc : c.link.cancelled = false := Bool.of_not_eq_true hc
    obtain ⟨shown, haside⟩ := haside
    obtain ⟨text, s, htext, hstep, hs⟩ := shows_of_aside rounds (hpolicy ▸ haside)
    obtain ⟨turns', left', rfl, hturns, hends', hamid⟩ := ih hpolicy hlines h
    have hne : s ≠ .quit := by
      rintro rfl
      simp at hstep
    have hs : Sink.Shows (fun out => c.awaitLine.step rounds text out) (.done s) c shown := by
      rwa [awaitLine_of_quiet quiet]
    exact ⟨⟨line, c, s, c, shown⟩ :: turns', left', rfl, .cons hc htext hs hne hturns, hends',
      hamid.further ⟨haside, hstep, rfl⟩⟩

/-- **Lines that are nothing to the ECU are nothing to the session.** With
blank and rejected lines put in anywhere between the lines of an input, as many
as may be, the session comes to the same summary and leaves the same console:
the line to the ECU in the same state after the same calls, and the same last
reply. What was shown differs by the texts for the lines put in, in their
places. -/
theorem run_interspersed {ω : Type} [Sink ω] {out : ω} {input more : List UInt8} (quiet : ∀ s : σ, Line.idle s = s)
    (works : Sink.Works out) (h : Interspersed c.policy input more) (rounds : Nat) :
    let run := c.run rounds input out
    let longer := c.run rounds more out
    longer.1 = run.1 ∧ longer.2.1 = run.2.1 ∧
      ∃ turns turns' d, Handles rounds c turns d ∧ Handles rounds c turns' d ∧
        turns.map (·.line) <+: Text.lines input ∧ turns'.map (·.line) <+: Text.lines more ∧
        Amid (Handled.IsAside c.policy) turns turns' ∧
        Sink.Takes out (bannerText ++ promptText ++ String.join (turns.map (·.shown))) run.2.2 ∧
        Sink.Takes out (bannerText ++ promptText ++ String.join (turns'.map (·.shown))) longer.2.2 := by
  intro run longer
  obtain ⟨turns, left, d, hlines, hturns, hends⟩ := handles_lines rounds (Text.lines input) c
  obtain ⟨answer, e, hend⟩ := hends (turns.foldl (fun summary turn => summary.add turn.step) {})
  obtain ⟨turns', left', hmore, hturns', hend', hamid⟩ := hturns.amid quiet h.lines rfl hlines hend
  rw [← foldl_amid hamid] at hend'
  obtain ⟨out₁, hrun, htakes⟩ := hturns.run works hlines hend
  obtain ⟨out₂, hlonger, htakes'⟩ := hturns'.run works hmore hend'
  have hrun : run = (answer, e, out₁) := hrun
  have hlonger : longer = (answer, e, out₂) := hlonger
  rw [hrun, hlonger]
  exact ⟨rfl, rfl, turns, turns', d, hturns, hturns', ⟨left, hlines.symm⟩, ⟨left', hmore.symm⟩, hamid, htakes,
    htakes'⟩

/-- A console on a line that answers every byte with that byte, and a user who
asks to stop with the fourth read. -/
def impatient : Console ScriptedLine where
  link := { line := { replies := fun b => [[.piece [b]]], stopAtRead := some 4 } }
  policy := .strict
  response := ⟨#[], 3, by decide⟩

/-- A word, a blank line and a number too large come between the commands, and
another blank line after the user has asked to stop. -/
theorem impatient_interspersed :
    let input := "10\n11\n12".toUTF8.data.toList
    let more := "zz\n10\n \t\n100\n11\n\n12".toUTF8.data.toList
    Interspersed .strict input more ∧
      (impatient.run 8 input ({} : BoundedSink)).1 = .done ⟨2, 2⟩ ∧
      (impatient.run 8 more ({} : BoundedSink)).1 = .done ⟨2, 2⟩ ∧
      (impatient.run 8 more ({} : BoundedSink)).2.1 = (impatient.run 8 input ({} : BoundedSink)).2.1 := by
  intro input more
  have hopen : ({} : BoundedSink).Open := ⟨rfl, rfl⟩
  have hleave : ∀ text ∈ ["zz\n", "100\n"], ¬ AsksToLeave text := by
    unfold AsksToLeave
    decide
  have hzz : Text.decode? [0x7A, 0x7A, 10] = some "zz\n" := by rfl
  have hblanks : Text.decode? [0x20, 9, 10] = some " \t\n" := by rfl
  have hhundred : Text.decode? [0x31, 0x30, 0x30, 10] = some "100\n" := by rfl
  have hnothing : Text.decode? [10] = some "\n" := by rfl
  have hword : Aside .strict [0x7A, 0x7A, 10] _ :=
    .rejected ⟨[0x7A, 0x7A], by decide, rfl⟩ hzz (by decide) (hleave _ (by simp)) (by rfl)
  have hblank : Aside .strict [0x20, 9, 10] _ := .blank ⟨[0x20, 9], by decide, rfl⟩ hblanks (by decide)
  have hlarge : Aside .strict [0x31, 0x30, 0x30, 10] _ :=
    .rejected ⟨[0x31, 0x30, 0x30], by decide, rfl⟩ hhundred (by decide) (hleave _ (by simp)) (by rfl)
  have hempty : Aside .strict [10] _ := .blank ⟨[], by decide, rfl⟩ hnothing (by decide)
  have hten : Text.Closed [0x31, 0x30, 10] := ⟨[0x31, 0x30], by decide, rfl⟩
  have heleven : Text.Closed [0x31, 0x31, 10] := ⟨[0x31, 0x31], by decide, rfl⟩
  have h : Interspersed .strict input more :=
    .aside hword (.line hten (.aside hblank (.aside hlarge (.line heleven (.aside hempty .same)))))
  obtain ⟨hsummary, hconsole, -⟩ := run_interspersed (c := impatient) (fun _ => rfl) hopen.works h 8
  have hdone : (impatient.run 8 input ({} : BoundedSink)).1 = .done ⟨2, 2⟩ := by rfl
  exact ⟨h, hdone, hsummary.trans hdone, hconsole⟩

end Console
end MemsProbe
