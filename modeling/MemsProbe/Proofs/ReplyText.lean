/-
What is shown of a reply, and that it can be read back.

How a reply ends and what was kept of it are told apart: `Stop.EndsIn` says
which failure the reading ended in, if in any, and `Prints` what is shown for
it. There are bytes or not, and there is a failure or not; each of the four
has its text, and only a reply without bytes and without a failure is said not
to be there.

A dump can be read back from the left, whatever comes after it, for nothing
else that is shown begins as a byte does (`undump_dumpFrom`). So with any sink
that works the text holds just the bytes that are kept, however the reading of
them ended (`step_prints`).
-/
import MemsProbe.Proofs.Numerals
import MemsProbe.Proofs.Steps

namespace MemsProbe

/-! ## Dumps -/

namespace Hex

/-- The bytes that a text begins with, each as two digits and a blank, and on
whichever lines. -/
def undump : List Char → List UInt8
  | '\n' :: cs => undump cs
  | high :: low :: ' ' :: cs =>
    match Numeral.digitValue high, Numeral.digitValue low with
    | some h, some l => UInt8.ofNat (16 * h + l) :: undump cs
    | _, _ => []
  | _ => []

theorem digitValue_digit {d : Nat} (hd : d < 16) : Numeral.digitValue (digit d) = some d := by
  have hall : ∀ d < 16, Numeral.digitValue (digit d) = some d := by decide
  exact hall d hd

theorem undump_cell (b : UInt8) (cs : List Char) : undump (cell b ++ cs) = b :: undump cs := by
  have hb : b.toNat < 256 := b.toNat_lt
  have hhigh := digitValue_digit (show b.toNat / 16 < 16 by omega)
  have hlow := digitValue_digit (show b.toNat % 16 < 16 by omega)
  have hline : digit (b.toNat / 16) ≠ '\n' := by
    intro hline
    rw [hline] at hhigh
    cases hhigh
  show undump (digit (b.toNat / 16) :: digit (b.toNat % 16) :: ' ' :: cs) = b :: undump cs
  rw [undump, hhigh, hlow]
  · show UInt8.ofNat (16 * (b.toNat / 16) + b.toNat % 16) :: undump cs = b :: undump cs
    rw [Nat.div_add_mod, UInt8.ofNat_toNat]
  · exact hline

/-- A dump is read back, and then what comes after it. -/
theorem undump_dumpFrom (room : Nat) (bytes : List UInt8) (cs : List Char) :
    undump (dumpFrom room bytes ++ cs) = bytes ++ undump cs := by
  induction bytes generalizing room with
  | nil => rfl
  | cons b bytes ih =>
    rw [dumpFrom]
    split
    · rw [List.append_assoc, undump_cell, List.cons_append, undump, ih, List.cons_append]
    · rw [List.append_assoc, undump_cell, ih, List.cons_append]

theorem undump_dump (bytes : List UInt8) (rest : String) :
    undump (dump bytes ++ rest).toList = bytes ++ undump rest.toList := by
  rw [dump, String.toList_append, String.toList_ofList, undump_dumpFrom]

end Hex

/-! ## Endings -/

namespace Stop

/-- The failure that the reading of a reply ended in, if it ended in one: a
silence is none, unless more was delivered than there is room for. -/
inductive EndsIn (capacity : Nat) (bytes : List UInt8) : Stop → Option Failure → Prop
  | silence : bytes.length ≤ capacity → EndsIn capacity bytes .silence none
  | overflow : capacity < bytes.length →
      EndsIn capacity bytes .silence (some (.overflow capacity (bytes.length - capacity)))
  | cancelled : EndsIn capacity bytes .asked (some .cancelled)
  | fault : EndsIn capacity bytes (.fault f) (some f)

theorem endsIn_answer (capacity : Nat) (bytes : List UInt8) (stop : Stop) :
    EndsIn capacity bytes stop (stop.answer capacity bytes.length).failure? := by
  cases stop with
  | asked => exact .cancelled
  | fault f => exact .fault
  | silence =>
    rw [answer]
    split
    next hfits => exact .silence hfits
    next hover => exact .overflow (Nat.lt_of_not_le hover)

end Stop

namespace Console

/-! ## Texts -/

/-- What is shown of a reply, up to the next prompt. -/
inductive Prints (response : List UInt8) : Option Failure → String → Prop
  | whole : response ≠ [] → Prints response none (Hex.dump response ++ "> ")
  | silent : response = [] → Prints response none ("No response from ECU.\n" ++ "> ")
  | cutShort : response ≠ [] →
      Prints response (some e) (Hex.dump response ++ ("Error: " ++ e.message ++ ".\n" ++ "> "))
  | failed : response = [] → Prints response (some e) ("Error: " ++ e.message ++ ".\n" ++ "> ")

theorem replyText_prints (response : List UInt8) (failure : Option Failure) :
    Prints response failure (replyText response failure ++ promptText) := by
  by_cases hempty : response = []
  · subst hempty
    cases failure with
    | none =>
      have hprints : Prints [] none ("No response from ECU.\n" ++ "> ") := .silent rfl
      simpa [replyText, responseText, promptText] using hprints
    | some e =>
      have hprints : Prints [] (some e) ("Error: " ++ e.message ++ ".\n" ++ "> ") := .failed rfl
      simpa [replyText, responseText, promptText, failureText, String.append_assoc] using hprints
  · cases failure with
    | none => simpa [replyText, responseText, promptText, hempty] using Prints.whole hempty
    | some e =>
      simpa [replyText, responseText, promptText, failureText, hempty, String.append_assoc] using
        Prints.cutShort (e := e) hempty

section

variable {response : List UInt8} {failure : Option Failure} {text : String}

theorem undump_failed (e : Failure) : Hex.undump ("Error: " ++ e.message ++ ".\n" ++ "> ").toList = [] := by
  simp [Hex.undump]

/-- The bytes in the text are those of the reply. -/
theorem Prints.undump (h : Prints response failure text) : Hex.undump text.toList = response := by
  cases h with
  | whole => rw [Hex.undump_dump]; exact List.append_nil response
  | silent hempty => rw [hempty]; rfl
  | cutShort => rw [Hex.undump_dump, undump_failed, List.append_nil]
  | failed hempty => rw [hempty, undump_failed]

/-- A text that begins with another one begins with its first character. -/
theorem head?_of_eq_append {text front rest : String} {c : Char} (h : text = front ++ rest)
    (hc : front.toList.head? = some c) : text.toList.head? = some c := by
  rw [h, String.toList_append, List.head?_append, hc, Option.some_or]

theorem head?_error (e : Failure) : ("Error: " ++ e.message ++ ".\n" ++ "> ").toList.head? = some 'E' := by
  simp

/-- That there is no response is said only of a reply without bytes that was
read to the silence, and then it is all that is said. -/
theorem Prints.silent_iff (h : Prints response failure text) :
    (∃ rest, text = "No response from ECU.\n" ++ rest) ↔ response = [] ∧ failure = none := by
  constructor
  · rintro ⟨rest, hrest⟩
    have hhead := head?_of_eq_append hrest (c := 'N') (by decide)
    have hundump := h.undump
    rw [hrest, String.toList_append] at hundump
    cases h with
    | whole hne | cutShort hne => exact absurd hundump.symm hne
    | silent hempty => exact ⟨hempty, rfl⟩
    | failed =>
      rw [head?_error] at hhead
      cases hhead
  · rintro ⟨rfl, rfl⟩
    cases h with
    | whole hne => exact absurd rfl hne
    | silent => exact ⟨"> ", rfl⟩

/-- It does not come after a dump. -/
theorem Prints.not_after_dump (h : Prints response failure text) (bytes : List UInt8) (rest : String) :
    text ≠ Hex.dump bytes ++ ("No response from ECU.\n" ++ rest) := by
  intro htext
  have hbytes : bytes = response := by
    have hundump := h.undump
    rw [htext, Hex.undump_dump, String.toList_append] at hundump
    exact (List.append_nil bytes).symm.trans hundump
  subst hbytes
  have hdifferent : ∀ {told : String}, told.toList.head? ≠ some 'N' →
      Hex.dump bytes ++ told ≠ Hex.dump bytes ++ ("No response from ECU.\n" ++ rest) := by
    intro told htold heq
    rw [String.append_right_inj] at heq
    exact htold (head?_of_eq_append heq (by decide))
  cases h with
  | whole => exact hdifferent (by decide) htext
  | cutShort => exact hdifferent (by rw [head?_error]; decide) htext
  | silent hempty | failed hempty =>
    subst hempty
    have hhead := head?_of_eq_append htext (c := '\n') (by decide)
    simp at hhead

variable {σ ω : Type} [Line σ] [Sink ω] {c d : Console σ} {out : ω} {rounds : Nat} {line : String} {b : UInt8}
  {answer : Outcome Step} {shown : String} {bytes : List UInt8} {stop : Stop} {s t : σ}

/-! ## Exchanges -/

omit [Line σ] in
theorem Reports.of_works {run : Outcome Step × Console σ × ω} (h : Reports out answer d shown run)
    (works : Sink.Works out) : run.1 = answer ∧ Sink.Takes out shown run.2.2 := by
  cases h with
  | shown _ ht => exact ⟨rfl, ht⟩
  | refused _ _ hr => exact absurd hr works.never_refuses

/-- A byte that was taken, and a line that stops. -/
theorem Deals.of_delivers (h : Deals rounds c line answer d shown) (hleave : ¬ AsksToLeave line)
    (hb : typedByte? c.policy line = some b) (hw : Line.write [b] c.link.line = (.ok 1, s))
    (hd : Line.Delivers s bytes stop t) (hr : bytes.length < rounds) :
    answer = .done (.exchanged b d.response.size) ∧ d.response.bytes.toList = bytes.take c.response.capacity ∧
      shown = replyText (bytes.take c.response.capacity) (stop.answer c.response.capacity bytes.length).failure? ++
        promptText := by
  cases h with
  | quit hleave' => exact absurd hleave' hleave
  | blank hblank => exact absurd hblank (parse_of_typed hb).1
  | rejected _ _ hparse =>
    rw [(parse_of_typed hb).2] at hparse
    cases hparse
  | writeFailed _ hb' hw' hne =>
    cases hb'.symm.trans hb
    cases hw'.symm.trans hw
    exact absurd rfl hne
  | exchanged _ hb' hw' hd' _ hasked =>
    cases hb'.symm.trans hb
    cases hw'.symm.trans hw
    obtain ⟨rfl, rfl, rfl⟩ := hd.unique hd'
    refine ⟨rfl, ?_, rfl⟩
    rw [hasked.response, Stop.delivered_after]
  | unfinished _ hb' hw' hstops =>
    cases hb'.symm.trans hb
    cases hw'.symm.trans hw
    exact absurd ⟨_, _, _, hd, hr⟩ hstops

/-- **What is shown of an exchange is what was kept of its reply.** A command
byte that was taken, with a sink that works: as soon as the line stops, the
text is the dump of the bytes kept if there are any, or else that there is no
response, but that only if nothing went wrong; then the failure that the
reading ended in, just if it ended in one; then the prompt. The bytes read
back from the text are the bytes kept, in every case. While a reply goes on,
nothing is shown. -/
theorem step_prints (works : Sink.Works out) (hleave : ¬ AsksToLeave line) (hb : typedByte? c.policy line = some b)
    (hsent : (Line.write [b] c.link.line).1 = .ok 1) :
    let after := (Line.write [b] c.link.line).2
    let run := c.step rounds line out
    let response := run.2.1.response.bytes.toList
    (∀ bytes stop t, Line.Delivers after bytes stop t → bytes.length < rounds →
      run.1 = .done (.exchanged b response.length) ∧ response = bytes.take c.response.capacity ∧
        ∃ failure text, stop.EndsIn c.response.capacity bytes failure ∧ Prints response failure text ∧
          Sink.Takes out text run.2.2 ∧ Hex.undump text.toList = response ∧
          ((∃ rest, text = "No response from ECU.\n" ++ rest) ↔ response = [] ∧ failure = none) ∧
          ∀ bytes rest, text ≠ Hex.dump bytes ++ ("No response from ECU.\n" ++ rest)) ∧
      (¬ Line.StopsWithin rounds after → run.1 = .unfinished ∧ Sink.Takes out "" run.2.2) := by
  intro after run response
  obtain ⟨answer, d, shown, hdeals, hreports⟩ := step_deals rounds line c out
  obtain ⟨hrun, htakes⟩ := hreports.of_works works
  have hresponse : response = d.response.bytes.toList := by rw [← hreports.alike.response]
  have hw : Line.write [b] c.link.line = (.ok 1, after) := by rw [← hsent]
  constructor
  · intro bytes stop t hd hr
    obtain ⟨hanswer, hkept, rfl⟩ := hdeals.of_delivers hleave hb hw hd hr
    rw [← hkept, ← hresponse] at htakes
    have hprints := replyText_prints response (stop.answer c.response.capacity bytes.length).failure?
    refine ⟨?_, hresponse.trans hkept, _, _, stop.endsIn_answer c.response.capacity bytes, hprints, htakes,
      hprints.undump, hprints.silent_iff, hprints.not_after_dump⟩
    rw [hresponse]
    exact hrun.trans hanswer
  · intro hon
    obtain rfl := hdeals.unfinished_iff.2 ⟨b, after, hleave, hb, hw, hon⟩
    cases hdeals with
    | unfinished => exact ⟨hrun, htakes⟩

end

/-- A console without room for a byte, over a line that answers every byte
with three. -/
def roomless : Console ScriptedLine where
  link := { line := { replies := fun b => [[.piece [b, 1, 2]]] } }
  policy := .strict
  response := ⟨#[], 0, by decide⟩

/-- What goes over is told of, and not that there is no response. -/
theorem roomless_prints :
    (roomless.step 4 "10\n" ({} : BoundedSink)).2.2.offered =
        "Error: Response longer than 0 bytes, 3 extra byte(s) discarded.\n> " ∧
      Hex.undump (faulty.step 4 "1f\n" ({} : BoundedSink)).2.2.offered.toList = [0x1F] := by
  have hopen : ({} : BoundedSink).Open := ⟨rfl, rfl⟩
  constructor
  · have hd : Line.Delivers (Line.write [0x10] roomless.link.line).2 [0x10, 1, 2] .silence _ :=
      .byte rfl rfl (.byte rfl rfl (.byte rfl rfl (.silence rfl rfl)))
    have hleave : ¬ AsksToLeave "10\n" := by unfold AsksToLeave; decide
    obtain ⟨hstops, -⟩ := step_prints hopen.works hleave (c := roomless) (b := 0x10) (by decide) rfl
    obtain ⟨-, hkept, failure, text, hends, hprints, htakes, -⟩ := hstops _ _ _ hd (show 3 < 4 by decide)
    rw [hkept] at hprints
    cases hends with
    | silence hfits => exact absurd hfits (by decide)
    | overflow =>
      cases hprints with
      | cutShort hne => exact absurd rfl hne
      | failed => exact congrArg BoundedSink.offered (hopen.takes htakes)
  · have hd : Line.Delivers (Line.write [0x1F] faulty.link.line).2 [0x1F] (.fault (.serial "gone")) _ :=
      .byte rfl rfl (.fault rfl rfl)
    have hleave : ¬ AsksToLeave "1f\n" := by unfold AsksToLeave; decide
    obtain ⟨hstops, -⟩ := step_prints hopen.works hleave (c := faulty) (b := 0x1F) (by decide) rfl
    obtain ⟨-, hkept, failure, text, -, -, htakes, hundump, -⟩ := hstops _ _ _ hd (show 1 < 4 by decide)
    have hoffered : (faulty.step 4 "1f\n" ({} : BoundedSink)).2.2.offered = text := by
      simpa using congrArg BoundedSink.offered (hopen.takes htakes)
    rw [hoffered, hundump, hkept]
    rfl

end Console
end MemsProbe
