/-
What the console puts on the wire.

Each line of input that is handled offers the byte that it stands for, in
one attempt, if it stands for one; blank lines, lines that are rejected and
the line that asks to leave offer nothing. Nothing else offers anything: a
reply is only listened to, however it ends, and what is shown to the user
or noted leaves no mark on the wire.
-/
import MemsProbe.Proofs.Listening

namespace MemsProbe

/-- A line that ends a console session. -/
def AsksToLeave (line : String) : Prop :=
  Text.trim line.toList = ['q'] ∨ Text.trim line.toList = ['q', 'u', 'i', 't']

/-- The command byte that a line of input stands for, if it is neither blank
nor rejected. -/
def typedByte? (policy : HexPolicy) (line : String) : Option UInt8 :=
  let text := Text.trim line.toList
  if text.isEmpty then none else (CommandByte.parse policy (String.ofList text)).toOption

/-- The bytes that were typed, one attempt each, on the first of the lines,
before any that asks to leave. -/
def Dialogue (policy : HexPolicy) (lines : List (List UInt8)) (made : List Attempt) : Prop :=
  ∃ handled : List String, handled.map some <+: lines.map Text.decode? ∧
    (∀ line ∈ handled, ¬ AsksToLeave line) ∧
    made.map (·.offered) = (handled.filterMap (typedByte? policy)).map ([·])

theorem Dialogue.nil (policy : HexPolicy) (lines : List (List UInt8)) : Dialogue policy lines [] :=
  ⟨[], by simp, by simp, by simp⟩

theorem Dialogue.cons {policy : HexPolicy} {line : List UInt8} {lines : List (List UInt8)} {text : String}
    {made made' : List Attempt} (ht : Text.decode? line = some text) (hq : ¬ AsksToLeave text)
    (ho : made.map (·.offered) = (typedByte? policy text).toList.map ([·])) (h : Dialogue policy lines made') :
    Dialogue policy (line :: lines) (made ++ made') := by
  obtain ⟨handled, hp, hl, ho'⟩ := h
  refine ⟨text :: handled, ?_, ?_, ?_⟩
  · simpa [ht] using hp
  · simpa using ⟨hq, hl⟩
  · rw [List.map_append, ho, ho', ← List.map_append, List.filterMap_cons]
    cases typedByte? policy text <;> rfl

theorem Dialogue.last {policy : HexPolicy} {line : List UInt8} {text : String} {made : List Attempt}
    (ht : Text.decode? line = some text) (hq : ¬ AsksToLeave text)
    (ho : made.map (·.offered) = (typedByte? policy text).toList.map ([·])) (lines : List (List UInt8)) :
    Dialogue policy (line :: lines) made := by
  have h := Dialogue.cons ht hq ho (.nil policy lines)
  rwa [List.append_nil] at h

theorem Dialogue.single {policy : HexPolicy} {lines : List (List UInt8)} {made : List Attempt}
    (h : Dialogue policy lines made) : ∀ a ∈ made, ∃ b, a.offered = [b] := by
  obtain ⟨handled, -, -, ho⟩ := h
  intro a ha
  have hmem : a.offered ∈ (handled.filterMap (typedByte? policy)).map ([·]) := ho ▸ List.mem_map_of_mem ha
  obtain ⟨b, -, hb⟩ := List.mem_map.1 hmem
  exact ⟨b, hb.symm⟩

namespace Console

variable {σ ω : Type} {c c₁ c' : Console σ} {made made' : List Attempt}

/-- The attempts that lead from one console to another of the same policy. -/
def Makes (c : Console σ) (made : List Attempt) (c' : Console σ) : Prop :=
  c.link.Makes made c'.link ∧ c'.policy = c.policy

theorem Makes.refl (c : Console σ) : c.Makes [] c :=
  ⟨.refl _, rfl⟩

theorem Makes.trans (h : c.Makes made c₁) (h' : c₁.Makes made' c') : c.Makes (made ++ made') c' :=
  ⟨h.1.trans h'.1, h'.2.trans h.2⟩

theorem Makes.note (h : c.Makes made c') (n : Note) : c.Makes made { c' with link := c'.link.note n } :=
  ⟨h.1.note n, h.2⟩

theorem Makes.close (h : c.Makes made c') (summary : Summary) : c.Makes made (c'.close summary) :=
  h.note _

variable [Sink ω] {out out' : ω}

theorem tell_makes {b : UInt8} {text : String} {failure : Option Failure} {answer}
    (h : c.tell b text failure out = (answer, c', out')) : c.Makes [] c' := by
  simp only [tell] at h
  split at h
  · obtain ⟨-, rfl, -⟩ := by simpa using h
    exact .refl _
  · split at h
    · obtain ⟨-, rfl, -⟩ := by simpa using h
      exact .refl _
    · obtain ⟨-, rfl, -⟩ := by simpa using h
      exact (Makes.refl c).note _

theorem prompt_console (run : Outcome Step × Console σ × ω) : (prompt run).2.1 = run.2.1 := by
  simp only [prompt]
  split
  · split <;> rfl
  · rfl

theorem prompt_ne_quit (run : Outcome Step × Console σ × ω) (h : run.1 ≠ .done .quit) :
    (prompt run).1 ≠ .done .quit := by
  simp only [prompt]
  split
  · split
    · nofun
    · exact h
  · exact h

variable [Line σ] {rounds : Nat}

theorem send_makes {b : UInt8} {answer} (h : c.send b = (answer, c')) :
    ∃ a : Attempt, c.Makes [a] c' ∧ a.offered = [b] := by
  obtain ⟨taken, l', hw, -, hl, -, hp, -⟩ := send_writes h
  exact ⟨_, ⟨(Link.write_makes hw (.refl _)).of_calls_eq hl, hp⟩, rfl⟩

/-- What is heard of a reply belongs to the attempt that asked for it. -/
theorem send_drain_makes {b : UInt8} {answer drained} (h : c.send b = (answer, c₁))
    (hd : c₁.drain rounds = (drained, c')) : ∃ a : Attempt, c.Makes [a] c' ∧ a.offered = [b] := by
  obtain ⟨taken, l', hw, -, hl, -, hp, -⟩ := send_writes h
  obtain ⟨hs, hh, -, hp', -⟩ := drain_listens hd
  exact ⟨_, ⟨Link.write_makes hw (hh.hears.of_calls_eq hl.symm), hp'.trans hp⟩, rfl⟩

theorem exchangeAndTell_makes {b : UInt8} {answer}
    (h : c.exchangeAndTell rounds b out = (answer, c', out')) :
    (∃ a : Attempt, c.Makes [a] c' ∧ a.offered = [b]) ∧ answer ≠ .done .quit := by
  simp only [exchangeAndTell] at h
  split at h
  next cause c₁ hs =>
    obtain ⟨a, hm, ho⟩ := send_makes hs
    split at h
    all_goals
      obtain ⟨rfl, rfl, -⟩ := by simpa using h
      exact ⟨⟨a, hm.note _, ho⟩, by simp⟩
  next c₁ hs =>
    split at h
    next c₂ hd =>
      obtain ⟨rfl, rfl, -⟩ := by simpa using h
      exact ⟨send_drain_makes hs hd, by simp⟩
    next drained c₂ _ hd =>
      obtain ⟨a, hm, ho⟩ := send_drain_makes hs hd
      split at h
      all_goals
        next ht =>
          obtain ⟨rfl, rfl, -⟩ := by simpa using h
          exact ⟨⟨a, by simpa using hm.trans (tell_makes ht), ho⟩, by simp⟩

theorem command_makes {text : String} {answer} (h : c.command rounds text out = (answer, c', out')) :
    (∃ made, c.Makes made c' ∧
      made.map (·.offered) = (CommandByte.parse c.policy text).toOption.toList.map ([·])) ∧
      answer ≠ .done .quit := by
  simp only [command] at h
  split at h
  next b hb =>
    obtain ⟨⟨a, hm, ho⟩, hq⟩ := exchangeAndTell_makes h
    exact ⟨⟨[a], hm, by simp [hb, ho, Except.toOption]⟩, hq⟩
  next cause hb =>
    split at h
    all_goals
      obtain ⟨rfl, rfl, -⟩ := by simpa using h
      exact ⟨⟨[], .refl _, by simp [hb, Except.toOption]⟩, by simp⟩

/-- A line that asks to leave offers nothing and ends the session; any other
one offers the byte that it stands for and nothing else. -/
theorem step_makes {line : String} {answer} (h : c.step rounds line out = (answer, c', out')) :
    (AsksToLeave line ∧ answer = .done .quit ∧ c.Makes [] c') ∨
      (¬ AsksToLeave line ∧ answer ≠ .done .quit ∧ ∃ made, c.Makes made c' ∧
        made.map (·.offered) = (typedByte? c.policy line).toList.map ([·])) := by
  simp only [step] at h
  split at h
  next hq =>
    obtain ⟨rfl, rfl, -⟩ := by simpa using h
    exact .inl ⟨hq, rfl, .refl _⟩
  next hq =>
    refine .inr ⟨hq, ?_⟩
    split at h
    next hb =>
      have hc := prompt_console (.done .blank, c, out)
      have ha := prompt_ne_quit (.done .blank, c, out) (by simp)
      rw [h] at hc ha
      obtain rfl : c' = c := hc
      exact ⟨ha, [], .refl _, by simp [typedByte?, hb]⟩
    next hb =>
      obtain ⟨⟨made, hm, ho⟩, ha⟩ := command_makes
        (Prod.eta (c.command rounds (String.ofList (Text.trim line.toList)) out)).symm
      have hc := prompt_console (c.command rounds (String.ofList (Text.trim line.toList)) out)
      have ha := prompt_ne_quit _ ha
      rw [h] at hc ha
      obtain rfl : c' = _ := hc
      exact ⟨ha, made, hm, by simpa [typedByte?, hb] using ho⟩

/-- The lines handled are the first ones, and each offers the byte that it
stands for. -/
theorem runLines_makes {lines : List (List UInt8)} {summary : Summary} {answer}
    (h : runLines rounds lines summary c out = (answer, c', out')) :
    ∃ made, c.Makes made c' ∧ Dialogue c.policy lines made := by
  induction lines generalizing summary c out with
  | nil =>
    obtain ⟨-, rfl, -⟩ := by simpa [runLines] using h
    exact ⟨[], (Makes.refl c).close _, .nil _ _⟩
  | cons line lines ih =>
    simp only [runLines] at h
    split at h
    · obtain ⟨-, rfl, -⟩ := by simpa using h
      exact ⟨[], (Makes.refl c).close _, .nil _ _⟩
    have hw : c.Makes [] c.awaitLine := ⟨Link.idle_makes c.link, rfl⟩
    split at h
    · obtain ⟨-, rfl, -⟩ := by simpa using h
      exact ⟨[], hw, .nil _ _⟩
    next text ht =>
    split at h
    next hs =>
      obtain ⟨-, rfl, -⟩ := by simpa using h
      obtain ⟨-, ha, -⟩ | ⟨hq, -, made, hm, ho⟩ := step_makes hs
      · simp at ha
      · exact ⟨made, hw.trans hm, .last ht hq ho lines⟩
    next hs =>
      obtain ⟨-, rfl, -⟩ := by simpa using h
      obtain ⟨-, ha, -⟩ | ⟨hq, -, made, hm, ho⟩ := step_makes hs
      · simp at ha
      · exact ⟨made, hw.trans hm, .last ht hq ho lines⟩
    next hs =>
      obtain ⟨-, rfl, -⟩ := by simpa using h
      obtain ⟨-, -, hm⟩ | ⟨-, ha, -⟩ := step_makes hs
      · exact ⟨[], (hw.trans hm).close _, .nil _ _⟩
      · simp at ha
    next step c₁ out₁ hne hs =>
      obtain ⟨-, ha, -⟩ | ⟨hq, -, made, hm, ho⟩ := step_makes hs
      · simp at ha
        exact absurd ha hne
      · obtain ⟨made', hm', hd⟩ := ih h
        have hp : c₁.policy = c.policy := hm.2
        rw [hp] at hd
        exact ⟨made ++ made', hw.trans (hm.trans hm'), .cons ht hq ho hd⟩

theorem run_makes {input : List UInt8} {answer} (h : run rounds input c out = (answer, c', out')) :
    ∃ made, c.Makes made c' ∧ Dialogue c.policy (Text.lines input) made := by
  simp only [run] at h
  split at h
  · obtain ⟨-, rfl, -⟩ := by simpa using h
    exact ⟨[], .refl _, .nil _ _⟩
  · split at h
    · obtain ⟨-, rfl, -⟩ := by simpa using h
      exact ⟨[], .refl _, .nil _ _⟩
    · exact runLines_makes h

/-- Opening a console offers nothing. -/
theorem start_makes {settings : ConsoleSettings} {l : Link σ} (h : start settings l = .ok c) :
    l.Makes [] c.link ∧ c.policy = settings.policy := by
  simp only [start] at h
  split at h
  · cases h
  · split at h
    · cases h
      exact ⟨.refl _, rfl⟩
    · split at h
      · cases h
      next ht =>
        cases h
        exact ⟨Link.setTimeout_makes ht, rfl⟩

theorem start_error_makes {settings : ConsoleSettings} {l l' : Link σ} {e : Failure}
    (h : start settings l = .error (e, l')) : l.Makes [] l' := by
  simp only [start] at h
  split at h
  · cases h
    exact .refl _
  · split at h
    · cases h
    · split at h
      next ht =>
        cases h
        exact Link.setTimeout_makes ht
      · cases h

end Console
end MemsProbe
