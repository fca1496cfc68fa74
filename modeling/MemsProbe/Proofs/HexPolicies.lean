/-
The two readings of hexadecimal, where the strict one understands a text.

The lenient reading then says the same (`parse_lenient_of_understood`): what
the strict one leaves of a text, its digits and a mark, are also the parts
that the lenient one finds, and no sign stands before them.

A console looks at its policy in one place only, where a line is neither
blank nor a wish to leave. So a line that both policies read alike is handled
alike under both (`step_under`), and so is a whole session of such lines
(`run_under`), with any sink.
-/
import MemsProbe.Proofs.Dialogue
import MemsProbe.Proofs.TypedBytes

namespace MemsProbe

namespace CommandByte

open Numeral (IsWorth Writes)

/-- The strict reading does not refuse the text for its form. -/
def Understood (text : String) : Prop :=
  ∀ input reason, parse .strict text ≠ .error (.invalidInput input reason)

section

variable {text t row after : List Char} {c : Char} {d : Nat}

theorem not_isWorth_of_isBlank (h : Text.isBlank c = true) (d : Nat) : ¬ IsWorth c d := by
  intro hworth
  rw [hworth.not_special.1] at h
  cases h

/-- The mark that a text begins with, and what there is after it. -/
theorem Unmarked.exists_mark (h : Unmarked t row) :
    ∃ mark, t = Mark.text mark ++ row ∧
      (mark = .none → ∀ x more, row = '0' :: x :: more → x ≠ 'x' ∧ x ≠ 'X') := by
  cases h with
  | small => exact ⟨.small, rfl, nofun⟩
  | large => exact ⟨.large, rfl, nofun⟩
  | bare hnone => exact ⟨.none, rfl, fun _ => hnone⟩

/-- Among digits and the blanks after them there is no letter of a mark. -/
theorem ne_mark_of_mem (hdigits : ∀ c ∈ row, ∃ d, IsWorth c d) (hafter : ∀ c ∈ after, Text.isBlank c = true)
    (hc : c ∈ row ++ after) : c ≠ 'x' ∧ c ≠ 'X' := by
  rcases List.mem_append.1 hc with hc | hc
  · obtain ⟨d, hworth⟩ := hdigits c hc
    obtain ⟨-, -, -, hmark⟩ := hworth.not_special
    exact hmark
  · have hblank := hafter c hc
    constructor
    · rintro rfl
      exact absurd hblank (by decide)
    · rintro rfl
      exact absurd hblank (by decide)

/-- What the strict reading takes apart, the lenient one takes apart alike. -/
theorem exists_layout_of_strict (ht : Text.Trimmed text t) (hrow : Unmarked t row) (hne : row ≠ [])
    (hdigits : ∀ c ∈ row, ∃ d, IsWorth c d) : ∃ l : Layout, l.text = text ∧ l.sign = .none ∧ l.row = row := by
  obtain ⟨before, after, rfl, hbefore, hafter⟩ := ht.within
  obtain ⟨mark, rfl, hnone⟩ := hrow.exists_mark
  obtain ⟨c, row, rfl⟩ := List.exists_cons_of_ne_nil hne
  obtain ⟨d, hworth⟩ := hdigits c List.mem_cons_self
  -- The first character after the blanks is a digit, with a mark as well.
  have hfirst : ∀ b ∈ (mark.text ++ (c :: row ++ after)).head?, ∃ d, IsWorth b d := by
    intro b hb
    cases mark with
    | none =>
      obtain rfl : c = b := Option.some.inj hb
      exact ⟨d, hworth⟩
    | small | large =>
      obtain rfl : '0' = b := Option.some.inj hb
      exact ⟨0, .inl rfl⟩
  refine ⟨
    { blanks := before
      sign := .none
      mark := mark
      row := c :: row
      rest := after
      allBlank := hbefore
      unblank := ?_, unsigned := ?_, marked := fun _ => hne, unmarked := ?_
      digits := hdigits
      ended := ?_ }, ?_, rfl, rfl⟩
  · intro b hb
    obtain ⟨d, hb⟩ := hfirst b hb
    exact hb.not_special.1
  · intro _ b hb
    obtain ⟨d, hb⟩ := hfirst b hb
    obtain ⟨-, hplus, hminus, -⟩ := hb.not_special
    exact ⟨hplus, hminus⟩
  · intro _ x b more hs hx
    have hmem : x ∈ c :: row ++ after := by simp [hs]
    exact absurd hx (not_or.2 (ne_mark_of_mem hdigits hafter hmem))
  · intro b hb
    exact not_isWorth_of_isBlank (hafter b (List.mem_of_mem_head? hb))
  · show before ++ ([] ++ (mark.text ++ (c :: row ++ after))) = before ++ (mark.text ++ c :: row ++ after)
    rw [List.nil_append, List.append_assoc]

end

/-- What the strict reading understands is digits and at most one mark. -/
theorem Understood.digits {text : String} (h : Understood text) {t row : List Char}
    (ht : Text.Trimmed text.toList t) (hrow : Unmarked t row) : row ≠ [] ∧ ∀ c ∈ row, isHexDigit c = true := by
  by_contra hno
  have hrefused : row = [] ∨ ∀ v, ¬ Writes 16 row v := by
    rw [or_iff_not_imp_left]
    intro hne v hv
    exact hno ⟨hne, (Numeral.writes_iff.1 hv).1⟩
  exact h _ _ (parse_strict_of_not_writes ht hrow hrefused)

/-- What the strict reading understands is a number, and the lenient one finds
the same. -/
theorem Understood.exists_ofNat {text : String} (h : Understood text) :
    ∃ n, parse .strict text = ofNat n ∧ parse .lenient text = ofNat n := by
  have ht := Text.trim_trimmed text.toList
  have hrow := dropMark_unmarked (Text.trim text.toList)
  obtain ⟨hne, hdigits⟩ := h.digits ht hrow
  obtain ⟨l, hl, hsign, hl'⟩ := exists_layout_of_strict ht hrow hne fun c hc => isHexDigit_iff.1 (hdigits c hc)
  obtain ⟨v, hv⟩ := l.exists_writes
  refine ⟨min v (UInt64.size - 1), parse_strict_eq_ofNat ht hrow hne (hl' ▸ hv), ?_⟩
  have hlenient : parse .lenient text = ofNat (lenientValue l.text) := by rw [hl]; rfl
  rw [hlenient, l.lenientValue_text hv, hsign]
  -- Without a sign both take what is beyond 64 bits for the largest of them.
  congr 1
  split
  · omega
  · rw [if_neg (by decide)]
    omega

theorem parse_lenient_of_understood {text : String} (h : Understood text) :
    parse .lenient text = parse .strict text := by
  obtain ⟨n, hstrict, hlenient⟩ := h.exists_ofNat
  rw [hstrict, hlenient]

/-- The blanks at the ends do not matter. -/
theorem Understood.trim {text : String} (h : Understood text) :
    Understood (String.ofList (Text.trim text.toList)) := by
  have hsame : Text.trim (Text.trim text.toList) = Text.trim text.toList :=
    (Text.trim_trimmed text.toList).self.eq_trim.symm
  intro input reason
  simp only [parse, strictValue, String.toList_ofList, hsame]
  exact h input reason

end CommandByte

/-- Both policies take the line for the same: a wish to leave, nothing at all,
or one and the same byte or failure. -/
def ReadAlike (p q : HexPolicy) (line : String) : Prop :=
  AsksToLeave line ∨ Text.trim line.toList = [] ∨
    CommandByte.parse p (String.ofList (Text.trim line.toList)) =
      CommandByte.parse q (String.ofList (Text.trim line.toList))

theorem ReadAlike.refl (p : HexPolicy) (line : String) : ReadAlike p p line :=
  .inr (.inr rfl)

namespace Console

variable {σ ω : Type}

/-- The same console under a policy. -/
def under (policy : HexPolicy) (c : Console σ) : Console σ :=
  { c with policy }

/-- What a part of the program came to, with the console it left under a
policy. -/
def leftUnder {α : Type} (policy : HexPolicy) (run : α × Console σ × ω) : α × Console σ × ω :=
  (run.1, run.2.1.under policy, run.2.2)

section

variable (policy : HexPolicy) (c : Console σ)

@[simp] theorem under_link : (c.under policy).link = c.link := rfl

@[simp] theorem under_policy : (c.under policy).policy = policy := rfl

@[simp] theorem under_response : (c.under policy).response = c.response := rfl

end

section

variable [Sink ω] {policy : HexPolicy} {c : Console σ} {out : ω}

theorem tell_under (b : UInt8) (text : String) (failure : Option Failure) :
    (c.under policy).tell b text failure out = leftUnder policy (c.tell b text failure out) := by
  unfold tell
  rcases Sink.print text out with ⟨e | _, out₁⟩
  · rfl
  · cases failure with
    | none => rfl
    | some cause => rfl

theorem prompt_under (run : Outcome Step × Console σ × ω) :
    prompt (leftUnder policy run) = leftUnder policy (prompt run) := by
  obtain ⟨answer, d, out₁⟩ := run
  cases answer with
  | failed e => rfl
  | unfinished => rfl
  | done s =>
    simp only [leftUnder, prompt]
    rcases Sink.emit promptText out₁ with ⟨e | _, out₂⟩
    · rfl
    · rfl

variable [Line σ] {rounds : Nat} {line : String}

theorem send_under (b : UInt8) : (c.under policy).send b = ((c.send b).1, (c.send b).2.under policy) := by
  simp only [send, under_link]
  rcases c.link.writeAll [b] with ⟨e | _, link⟩
  · rfl
  · rfl

theorem drain_under : (c.under policy).drain rounds = ((c.drain rounds).1, (c.drain rounds).2.under policy) := rfl

theorem exchangeAndTell_under (b : UInt8) :
    (c.under policy).exchangeAndTell rounds b out = leftUnder policy (c.exchangeAndTell rounds b out) := by
  simp only [exchangeAndTell, send_under]
  rcases c.send b with ⟨cause | _, c₁⟩
  · simp only
    rcases Sink.print writeFailedText out with ⟨e | _, out₁⟩
    · rfl
    · rfl
  · simp only [drain_under]
    rcases c₁.drain rounds with ⟨drained, c₂⟩
    have htell : ∀ text failure, (c₂.under policy).tell b text failure out = leftUnder policy (c₂.tell b text failure out) :=
      tell_under b
    cases drained with
    | unfinished => rfl
    | done _ | failed _ =>
      simp only [under_response, htell]
      rcases c₂.tell b _ _ out with ⟨e | _, c₃, out₁⟩
      · rfl
      · rfl

/-- A line that is read alike is handled alike. -/
theorem step_under (h : ReadAlike policy c.policy line) :
    (c.under policy).step rounds line out = leftUnder policy (c.step rounds line out) := by
  unfold step
  by_cases hleave : AsksToLeave line
  · have hleave : Text.trim line.toList = ['q'] ∨ Text.trim line.toList = ['q', 'u', 'i', 't'] := hleave
    simp only [if_pos hleave]
    rfl
  have hleave' : ¬ (Text.trim line.toList = ['q'] ∨ Text.trim line.toList = ['q', 'u', 'i', 't']) := hleave
  simp only [if_neg hleave']
  by_cases hblank : Text.trim line.toList = []
  · simp only [hblank, List.isEmpty_nil, if_true]
    exact prompt_under (.done .blank, c, out)
  obtain h | h | h := h
  · exact absurd h hleave
  · exact absurd h hblank
  simp only [List.isEmpty_iff, hblank, if_false]
  rw [← prompt_under]
  congr 1
  simp only [command, under_policy, h]
  cases CommandByte.parse c.policy (String.ofList (Text.trim line.toList)) with
  | ok b => exact exchangeAndTell_under b
  | error cause =>
    simp only
    rcases Sink.print (rejectionText cause) out with ⟨e | _, out₁⟩
    · rfl
    · rfl

/-- No line changes the policy. -/
theorem step_policy (rounds : Nat) (line : String) (c : Console σ) (out : ω) :
    (c.step rounds line out).2.1.policy = c.policy := by
  have hsame : (c.under c.policy).step rounds line out = leftUnder c.policy (c.step rounds line out) :=
    step_under (ReadAlike.refl c.policy line)
  exact congrArg (fun run => run.2.1.policy) hsame

/-- Lines that are read alike are handled alike, one after the other. -/
theorem runLines_under {lines : List (List UInt8)} {summary : Summary}
    (h : ∀ line ∈ lines, ∀ text, Text.decode? line = some text → ReadAlike policy c.policy text) :
    runLines rounds lines summary (c.under policy) out = leftUnder policy (runLines rounds lines summary c out) := by
  induction lines generalizing summary c out with
  | nil => rfl
  | cons line lines ih =>
    rw [List.forall_mem_cons] at h
    obtain ⟨hline, hlines⟩ := h
    rcases hc : c.link.cancelled
    case true =>
      simp only [runLines, under_link, hc, if_true]
      rfl
    simp only [runLines, under_link, hc, Bool.false_eq_true, if_false]
    cases htext : Text.decode? line with
    | none => rfl
    | some text =>
      have hstep : (c.under policy).awaitLine.step rounds text out =
          leftUnder policy (c.awaitLine.step rounds text out) :=
        step_under (c := c.awaitLine) (hline text htext)
      have hpolicy : (c.awaitLine.step rounds text out).2.1.policy = c.policy :=
        step_policy rounds text c.awaitLine out
      simp only [hstep]
      generalize c.awaitLine.step rounds text out = run at hpolicy
      obtain ⟨answer, d, out₁⟩ := run
      cases answer with
      | failed e => rfl
      | unfinished => rfl
      | done s =>
        have hrest : ∀ line ∈ lines, ∀ text, Text.decode? line = some text → ReadAlike policy d.policy text := by
          rw [show d.policy = c.policy from hpolicy]
          exact hlines
        cases s with
        | quit => rfl
        | blank | rejected | writeFailed _ | exchanged _ _ => exact ih hrest

theorem run_under {input : List UInt8}
    (h : ∀ line ∈ Text.lines input, ∀ text, Text.decode? line = some text → ReadAlike policy c.policy text) :
    (c.under policy).run rounds input out = leftUnder policy (c.run rounds input out) := by
  unfold run
  rcases Sink.print bannerText out with ⟨e | _, out₁⟩
  · rfl
  simp only
  rcases Sink.emit promptText out₁ with ⟨e | _, out₂⟩
  · rfl
  · exact runLines_under h

/-- **The policies differ only over what the strict one refuses.** A text that
it does not refuse for its form is the same byte to both, or out of range with
the same value, however many digits it has. So a session of lines that are
understood, blank or wishes to leave is the same under both, whatever the line
to the ECU, the user and the sink do: the same calls, the same text, the same
summary. -/
theorem policies_agree (rounds : Nat) (input : List UInt8) (c : Console σ) (out : ω) :
    (∀ text, CommandByte.Understood text →
      (∃ b, CommandByte.parse .strict text = .ok b ∧ CommandByte.parse .lenient text = .ok b) ∨
        ∃ n, 0xFF < n ∧ CommandByte.parse .strict text = .error (.outOfRange n) ∧
          CommandByte.parse .lenient text = .error (.outOfRange n)) ∧
      ((∀ line ∈ Text.lines input, ∀ text, Text.decode? line = some text →
          AsksToLeave text ∨ Text.trim text.toList = [] ∨ CommandByte.Understood text) →
        let strict := (c.under .strict).run rounds input out
        let lenient := (c.under .lenient).run rounds input out
        lenient.1 = strict.1 ∧ lenient.2.1.link = strict.2.1.link ∧
          lenient.2.1.response = strict.2.1.response ∧ lenient.2.2 = strict.2.2) := by
  constructor
  · intro text h
    obtain ⟨n, hstrict, hlenient⟩ := h.exists_ofNat
    have hyields := CommandByte.ofNat_yields n
    rw [← hstrict] at hyields
    rw [hlenient, ← hstrict]
    generalize CommandByte.parse .strict text = answer at hyields
    cases hyields with
    | byte b => exact .inl ⟨b, rfl, rfl⟩
    | outOfRange hlarge => exact .inr ⟨n, hlarge, rfl, rfl⟩
  · intro h strict lenient
    have halike : ∀ line ∈ Text.lines input, ∀ text, Text.decode? line = some text →
        ReadAlike .lenient (c.under .strict).policy text := by
      intro line hline text htext
      rcases h line hline text htext with hleave | hblank | hunderstood
      · exact .inl hleave
      · exact .inr (.inl hblank)
      · exact .inr (.inr (CommandByte.parse_lenient_of_understood hunderstood.trim))
    have hrun : lenient = leftUnder .lenient strict := run_under halike
    rw [hrun]
    exact ⟨rfl, rfl, rfl, rfl⟩

/-- A console with room for one byte, on a line that answers every byte with
that byte and two more. -/
def echoing : Console ScriptedLine where
  link := { line := { replies := fun b => [[.piece [b, 1, 2]]] } }
  policy := .strict
  response := ⟨#[], 1, by decide⟩

/-- A byte with a mark and blanks, a blank line, a number too large, and a wish
to leave. -/
def plainlyTyped : List UInt8 :=
  "\t0X1f \n\n100000000000000000000\nquit\n".toUTF8.data.toList

/-- The number too large is the same to both policies, and so is the session. -/
theorem echoing_agrees :
    CommandByte.parse .lenient "100000000000000000000\n" = .error (.outOfRange (UInt64.size - 1)) ∧
      ((echoing.under .lenient).run 8 plainlyTyped ({} : BoundedSink)).1 = .done ⟨1, 1⟩ ∧
      ((echoing.under .lenient).run 8 plainlyTyped ({} : BoundedSink)).2.2 =
        ((echoing.under .strict).run 8 plainlyTyped ({} : BoundedSink)).2.2 := by
  obtain ⟨hparse, hrun⟩ := policies_agree 8 plainlyTyped echoing ({} : BoundedSink)
  have hlarge : CommandByte.parse .strict "100000000000000000000\n" = .error (.outOfRange (UInt64.size - 1)) := by rfl
  have hsmall : CommandByte.parse .strict "\t0X1f \n" = .ok 0x1F := by rfl
  have hsmall_understood : CommandByte.Understood "\t0X1f \n" := by
    intro input reason
    rw [hsmall]
    nofun
  have hlarge_understood : CommandByte.Understood "100000000000000000000\n" := by
    intro input reason
    rw [hlarge]
    nofun
  have htexts : (Text.lines plainlyTyped).map Text.decode? =
      [some "\t0X1f \n", some "\n", some "100000000000000000000\n", some "quit\n"] := by
    rfl
  obtain ⟨hanswer, -, -, hout⟩ := hrun <| by
    intro line hline text htext
    have hmem : some text ∈ (Text.lines plainlyTyped).map Text.decode? := htext ▸ List.mem_map_of_mem hline
    simp only [htexts, List.mem_cons, Option.some.injEq, List.not_mem_nil, or_false] at hmem
    rcases hmem with rfl | rfl | rfl | rfl
    · exact .inr (.inr hsmall_understood)
    · exact .inr (.inl (by decide))
    · exact .inr (.inr hlarge_understood)
    · exact .inl (.inr (by decide))
  refine ⟨?_, ?_, hout⟩
  · obtain ⟨b, hb, -⟩ | ⟨n, -, hn, hlenient⟩ := hparse _ hlarge_understood
    · rw [hlarge] at hb
      cases hb
    · rw [hlenient, ← hn, hlarge]
  · rw [hanswer]
    rfl

end

end Console
end MemsProbe
