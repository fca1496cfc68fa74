/-
What repeated reads come to.

`Fetches` says that a read was made again and again, with these results, and
that the user had not asked to stop before any of them; `Over` says when no
further one is made. The two fix how often a loop reads. What it answers is
said of the results alone (`Verdict`), and so is what it has written by the
time it reads again.

The loop keeps no results but a tally of them. `Tally.of` is the tally that
results make for, and the loop that has come past its first results goes on
as one that is started from their tally (`Fetches.readLoop`). All else is
read off there.
-/
import Mathlib.Data.List.Induction
import MemsProbe.Diagnostics
import MemsProbe.Link.Scripted
import MemsProbe.Proofs.Operations
import MemsProbe.Proofs.Showing

namespace MemsProbe

namespace Sink

variable {ω : Type} [Sink ω]

/-- Texts were written one by one, and each was passed on before the next. -/
inductive Emits : ω → List String → ω → Prop
  | nothing (s : ω) : Emits s [] s
  | next : Emits s texts t → Sink.write text t = (.ok (), u) → Sink.flush u = (.ok (), v) →
      Emits s (texts ++ [text]) v

theorem Emits.takes {s t : ω} {texts : List String} (h : Emits s texts t) : Takes s (String.join texts) t := by
  induction h with
  | nothing => exact .nothing _
  | next _ hw hf ih => simpa using (ih.write hw).flush hf

end Sink

namespace Diagnostics

/-! ## Results of reads -/

section

variable {α : Type}

/-- What was read by the reads that went well. -/
def successes (results : List (Except Failure α)) : List α :=
  results.filterMap Except.toOption

/-- The failures of those that did not. -/
def failures (results : List (Except Failure α)) : List Failure :=
  results.filterMap fun result => match result with
    | .ok _ => none
    | .error e => some e

/-- What repeated reads come to, by their results. -/
inductive Verdict (count : ReadCount) : List (Except Failure α) → Outcome Unit → Prop
  /-- One read went well. -/
  | succeeded : .ok a ∈ results → Verdict count results (.done ())
  /-- None did; it is the last failure that counts. -/
  | failed : successes (earlier ++ [.error e]) = [] → Verdict count (earlier ++ [.error e]) (.failed e)
  /-- None was asked for. -/
  | zeroTimes : count = .times 0 → Verdict count [] (.failed (.commandFailed "read loop ran zero times"))
  /-- None was made. -/
  | cancelled : count ≠ .times 0 → Verdict count [] (.failed .cancelled)

theorem Verdict.ended {count : ReadCount} {results : List (Except Failure α)} {answer : Outcome Unit}
    (h : Verdict count results answer) : answer ≠ .unfinished := by
  cases h <;> nofun

/-- The tally of results. -/
def Tally.of (results : List (Except Failure α)) : Tally where
  reads := results.length
  succeeded := (successes results).length
  lastFailure := (failures results).getLast?

@[simp] theorem successes_snoc_ok (results : List (Except Failure α)) (a : α) :
    successes (results ++ [.ok a]) = successes results ++ [a] := by
  simp [successes, Except.toOption]

@[simp] theorem successes_snoc_error (results : List (Except Failure α)) (e : Failure) :
    successes (results ++ [.error e]) = successes results := by
  simp [successes, Except.toOption]

theorem Tally.of_snoc_ok (results : List (Except Failure α)) (a : α) :
    Tally.of (results ++ [.ok a]) =
      { Tally.of results with
        reads := (Tally.of results).reads + 1, succeeded := (Tally.of results).succeeded + 1 } := by
  simp [Tally.of, failures]

theorem Tally.of_snoc_error (results : List (Except Failure α)) (e : Failure) :
    Tally.of (results ++ [.error e]) =
      { Tally.of results with reads := (Tally.of results).reads + 1, lastFailure := some e } := by
  simp [Tally.of, failures]

theorem mem_successes {results : List (Except Failure α)} {a : α} : a ∈ successes results ↔ .ok a ∈ results := by
  rw [successes, List.mem_filterMap]
  constructor
  · rintro ⟨result, hmem, hval⟩
    cases result with
    | error e => cases hval
    | ok b =>
      obtain rfl := Option.some.inj hval
      exact hmem
  · exact fun h => ⟨.ok a, h, rfl⟩

/-- If any read was made, the tally comes to what the results do, whatever
stands in for a failure that there was not. -/
theorem Tally.verdict {results : List (Except Failure α)} (hne : results ≠ []) (count : ReadCount)
    (cause : Option Failure) :
    Verdict count results
      (.ofExcept { Tally.of results with lastFailure := (Tally.of results).lastFailure.or cause }.result) := by
  rcases hs : successes results with _ | ⟨a, more⟩
  · cases results using List.reverseRecOn with
    | nil => exact absurd rfl hne
    | append_singleton earlier last =>
      cases last with
      | ok a => simp at hs
      | error e =>
        have hnone : (Tally.of earlier).succeeded = 0 := by simpa [Tally.of] using hs
        rw [Tally.of_snoc_error, Tally.result, if_neg (by simp [hnone])]
        exact .failed hs
  · have hmem : .ok a ∈ results := mem_successes.1 (by rw [hs]; exact List.mem_cons_self)
    have hsome : 0 < (Tally.of results).succeeded := by simp [Tally.of, hs]
    rw [Tally.result, if_pos hsome]
    exact .succeeded hmem

end

/-! ## Making them -/

section

variable {σ α : Type} [Line σ]

/-- A read was made again and again, with these results, and the user had not
asked to stop before any of them. Each failure was noted. -/
inductive Fetches (fetch : Client σ → Except Failure α × Client σ) (c : Client σ) :
    List (Except Failure α) → Client σ → Prop
  | none : Fetches fetch c [] c
  | ok : Fetches fetch c results c₁ → c₁.cancelled = false → fetch c₁ = (.ok a, c') →
      Fetches fetch c (results ++ [.ok a]) c'
  | error : Fetches fetch c results c₁ → c₁.cancelled = false → fetch c₁ = (.error e, c') →
      Fetches fetch c (results ++ [.error e]) (c'.note (.readFailed (results.length + 1) e))

/-- No more reads are made than asked for. -/
def Within (count : ReadCount) (reads : Nat) : Prop :=
  ∀ n, count = .times n → reads ≤ n

/-- No further read is made: there have been as many as asked for, or the
user is found to have asked to stop before that. -/
def Over (count : ReadCount) (reads : Nat) (c : Client σ) : Prop :=
  count = .times reads ∨ Within count (reads + 1) ∧ c.cancelled = true

variable {fetch : Client σ → Except Failure α × Client σ} {c c' : Client σ} {results : List (Except Failure α)}
  {count : ReadCount} {reads : Nat}

theorem Within.of_succ (h : Within count (reads + 1)) : Within count reads :=
  fun n hn => Nat.le_of_succ_le (h n hn)

theorem Within.not_isEnough (h : Within count (reads + 1)) : isEnough count reads = false := by
  cases count with
  | times n => exact decide_eq_false (Nat.not_le.2 (h n rfl))
  | forever => rfl

theorem Over.within (h : Over count reads c) : Within count reads := by
  obtain rfl | ⟨h, -⟩ := h
  · intro n hn
    exact Nat.le_of_eq (ReadCount.times.inj hn)
  · exact h.of_succ

/-- So many reads are made, unless it is over before. -/
theorem fetches_or_over (fetch : Client σ → Except Failure α × Client σ) (c : Client σ) (count : ReadCount)
    (reads : Nat) :
    (∃ results c', results.length < reads ∧ Fetches fetch c results c' ∧ Over count results.length c') ∨
      ∃ results c', results.length = reads ∧ Fetches fetch c results c' ∧ Within count reads := by
  induction reads with
  | zero => exact .inr ⟨[], c, rfl, .none, fun _ _ => Nat.zero_le _⟩
  | succ reads ih =>
    obtain ⟨results, c', hlt, h, hover⟩ | ⟨results, c', rfl, h, hwithin⟩ := ih
    · exact .inl ⟨results, c', Nat.lt_succ_of_lt hlt, h, hover⟩
    by_cases hcount : count = .times results.length
    · exact .inl ⟨results, c', Nat.lt_succ_self _, h, .inl hcount⟩
    have hwithin : Within count (results.length + 1) := by
      rintro n rfl
      exact Nat.lt_of_le_of_ne (hwithin n rfl) fun heq => hcount (by rw [heq])
    by_cases hc : c'.cancelled = true
    · exact .inl ⟨results, c', Nat.lt_succ_self _, h, .inr ⟨hwithin, hc⟩⟩
    have hc : c'.cancelled = false := Bool.of_not_eq_true hc
    refine .inr ?_
    rcases hf : fetch c' with ⟨e | a, c₁⟩
    · exact ⟨results ++ [.error e], _, by simp, h.error hc hf, hwithin⟩
    · exact ⟨results ++ [.ok a], _, by simp, h.ok hc hf, hwithin⟩

variable {ω : Type} [Sink ω] {out : ω} {render : α → String}

/-- Past its first results, the loop goes on from their tally, and what there
was to show for them has been written. -/
theorem Fetches.readLoop (h : Fetches fetch c results c') (hwithin : Within count results.length)
    (works : Sink.Works out) (hsome : ∀ a, render a ≠ "") :
    ∃ out', Sink.Emits out ((successes results).map render) out' ∧ Sink.Works out' ∧
      ∀ rounds, Diagnostics.readLoop fetch render count (results.length + rounds) {} c out =
        Diagnostics.readLoop fetch render count rounds (Tally.of results) c' out' := by
  induction h with
  | none => exact ⟨out, .nothing out, works, fun rounds => by rw [List.length_nil, Nat.zero_add]; rfl⟩
  | @ok results c₁ c' a _ hc hf ih =>
    rw [List.length_append, List.length_singleton] at hwithin ⊢
    obtain ⟨out₁, hshown, works₁, hrest⟩ := ih hwithin.of_succ
    obtain ⟨out₂, out', hw, hflush, he, works'⟩ := works₁.write_flush (hsome a)
    refine ⟨out', by simpa using hshown.next hw hflush, works', fun rounds => ?_⟩
    have hmore : isEnough count (Tally.of results).reads = false := hwithin.not_isEnough
    rw [Nat.add_assoc, Nat.add_comm 1, hrest, Diagnostics.readLoop, Tally.of_snoc_ok]
    simp [hmore, hc, hf, he]
  | @error results c₁ c' e _ hc hf ih =>
    rw [List.length_append, List.length_singleton] at hwithin ⊢
    obtain ⟨out', hshown, works', hrest⟩ := ih hwithin.of_succ
    refine ⟨out', by simpa using hshown, works', fun rounds => ?_⟩
    have hmore : isEnough count (Tally.of results).reads = false := hwithin.not_isEnough
    rw [Nat.add_assoc, Nat.add_comm 1, hrest, Diagnostics.readLoop, Tally.of_snoc_error]
    simp only [hmore, hc, hf, Bool.false_eq_true, if_false]
    rfl

/-- When it is over, the loop comes to what its results do and shows no more. -/
theorem Over.readLoop (h : Over count results.length c) (fetch : Client σ → Except Failure α × Client σ)
    (render : α → String) (rounds : Nat) (out : ω) :
    ∃ answer c', Diagnostics.readLoop fetch render count (rounds + 1) (Tally.of results) c out = (answer, c', out) ∧
      Verdict count results answer ∧ Client.Alike c c' := by
  obtain rfl | ⟨hwithin, hc⟩ := h
  · have henough : isEnough (.times results.length) (Tally.of results).reads = true := decide_eq_true (Nat.le_refl _)
    refine ⟨_, _, by rw [Diagnostics.readLoop, if_pos henough, finish], ?_, .note c _⟩
    rcases results with _ | ⟨first, more⟩
    · exact .zeroTimes rfl
    · simpa using Tally.verdict (List.cons_ne_nil first more) _ none
  · have hmore : isEnough count (Tally.of results).reads = false := hwithin.not_isEnough
    refine ⟨_, _, by rw [Diagnostics.readLoop, hmore, if_neg Bool.false_ne_true, if_pos hc, finish], ?_,
      by exact ⟨rfl, rfl, rfl⟩⟩
    rcases results with _ | ⟨first, more⟩
    · exact .cancelled fun hzero => absurd (hwithin 0 hzero) (Nat.not_succ_le_zero 0)
    · exact Tally.verdict (List.cons_ne_nil first more) count (some .cancelled)

/-- From its beginning to its end, as long as it has a round left for that. -/
theorem Fetches.readLoop_over (h : Fetches fetch c results c') (hover : Over count results.length c')
    (works : Sink.Works out) (hsome : ∀ a, render a ≠ "") {rounds : Nat} (hr : results.length < rounds) :
    ∃ answer c'' out', Diagnostics.readLoop fetch render count rounds {} c out = (answer, c'', out') ∧
      Verdict count results answer ∧ Client.Alike c' c'' ∧ Sink.Emits out ((successes results).map render) out' := by
  obtain ⟨spare, rfl⟩ := Nat.exists_eq_add_of_lt hr
  obtain ⟨out', hshown, -, hrest⟩ := h.readLoop hover.within works hsome
  obtain ⟨answer, c'', hlast, hverdict, halike⟩ := hover.readLoop fetch render spare out'
  exact ⟨answer, c'', out', by rw [Nat.add_assoc, hrest, hlast], hverdict, halike, hshown⟩

/-- What there is to say of repeated reads, as a run of so many rounds. -/
structure Repeated (fetch : Client σ → Except Failure α × Client σ) (render : α → String) (count : ReadCount)
    (c : Client σ) (out : ω) (run : Nat → Outcome Unit × Client σ × ω) : Prop where
  /-- The run ends just when it is over after fewer reads than it has rounds. -/
  ends_iff : ∀ rounds, (run rounds).1 ≠ .unfinished ↔
    ∃ results c', results.length < rounds ∧ Fetches fetch c results c' ∧ Over count results.length c'
  /-- A number of reads is over at the latest when they have been made. -/
  counted : ∀ n rounds, count = .times n → n < rounds → (run rounds).1 ≠ .unfinished
  /-- It then comes to what the results do, and has shown those that went well. -/
  outcome : ∀ results c' rounds, Fetches fetch c results c' → Over count results.length c' →
    results.length < rounds →
      Verdict count results (run rounds).1 ∧ Client.Alike c' (run rounds).2.1 ∧
        Sink.Takes out (String.join ((successes results).map render)) (run rounds).2.2
  /-- When the next read is made, the sink has had all that there was to show,
  and each text was passed on before the one after it. -/
  before : ∀ results c', Fetches fetch c results c' → Within count results.length →
    ∃ out', Sink.Emits out ((successes results).map render) out' ∧
      ∀ rounds, run (results.length + rounds) =
        Diagnostics.readLoop fetch render count rounds (Tally.of results) c' out'

theorem readLoop_repeated (works : Sink.Works out) (fetch : Client σ → Except Failure α × Client σ)
    (hsome : ∀ a, render a ≠ "") (count : ReadCount) (c : Client σ) :
    Repeated fetch render count c out fun rounds => Diagnostics.readLoop fetch render count rounds {} c out := by
  have hends : ∀ rounds, (readLoop fetch render count rounds {} c out).1 ≠ .unfinished ↔
      ∃ results c', results.length < rounds ∧ Fetches fetch c results c' ∧ Over count results.length c' := by
    intro rounds
    constructor
    · intro hne
      refine (fetches_or_over fetch c count rounds).resolve_right ?_
      rintro ⟨results, c', rfl, h, hwithin⟩
      obtain ⟨out', -, -, hrest⟩ := h.readLoop hwithin works hsome
      exact hne (congrArg Prod.fst (hrest 0))
    · rintro ⟨results, c', hr, h, hover⟩
      obtain ⟨answer, c'', out', heq, hverdict, -⟩ := h.readLoop_over hover works hsome hr
      rw [heq]
      exact hverdict.ended
  refine ⟨hends, fun n rounds hn hr => ?_, fun results c' rounds h hover hr => ?_, fun results c' h hwithin => ?_⟩
  · refine (hends rounds).2 ((fetches_or_over fetch c count rounds).resolve_right ?_)
    rintro ⟨_, _, -, -, hwithin⟩
    exact absurd (hwithin n hn) (Nat.not_le.2 hr)
  · obtain ⟨answer, c'', out', heq, hverdict, halike, hshown⟩ := h.readLoop_over hover works hsome hr
    rw [heq]
    exact ⟨hverdict, halike, hshown.takes⟩
  · obtain ⟨out', hshown, -, hrest⟩ := h.readLoop hwithin works hsome
    exact ⟨out', hshown, hrest⟩

/-- A reading as it is shown: its report, or its object on a line. -/
def shownReading : OutputFormat → Reading → String
  | .text, r => r.report ++ "\n"
  | .json, r => r.json ++ "\n"

theorem readingText_eq (format : OutputFormat) : readingText format = shownReading format := by
  cases format <;> rfl

theorem shownReading_ne_empty (format : OutputFormat) (r : Reading) : shownReading format r ≠ "" := by
  cases format <;> simp [shownReading]

theorem framesText_ne_empty (format : OutputFormat) (frames : Frame80 × Frame7D) : framesText format frames ≠ "" := by
  cases format <;> simp [framesText]

/-- **Repeated reads come to what their results do**, for any line, any
format and any sink that works. Reads are made until there have been as many
as asked for or the user is found to have asked to stop, whichever is first.
They come to success if one went well, even if the user has asked to stop
since, and otherwise to the failure of the last; if none was made, it is the
wish to stop that is told, unless none was asked for. What was read is shown
in order, and each read that went well has been written and passed on before
the next is made. -/
theorem execute_repeated (works : Sink.Works out) (options : RunOptions) (input : List UInt8) (c : Client σ) :
    Repeated Client.readData (shownReading options.outputFormat) options.readCount c out
        (fun rounds => execute options rounds .read input c out) ∧
      Repeated Client.readRaw (framesText options.outputFormat) options.readCount c out
        (fun rounds => execute options rounds .readRaw input c out) := by
  simp only [execute, readingText_eq]
  exact ⟨readLoop_repeated works Client.readData (shownReading_ne_empty _) _ c,
    readLoop_repeated works Client.readRaw (framesText_ne_empty _) _ c⟩

/-- An ECU that is silent when it is first asked for a frame, answers once,
and is not to be made out from then on. -/
def flaky : Client ScriptedLine where
  link := { line := { replies := fun b =>
    if b = Wire.requestFrame80 then [[], [.piece (b :: List.replicate 28 7)], [.piece [0x81]]] else [] } }

/-- Three reads, of which one goes well: it is shown, and that makes a success. -/
theorem flaky_repeated :
    let run := execute { readCount := .times 3 } 4 .read [] flaky ({} : BoundedSink)
    ∃ results c', Fetches Client.readData flaky results c' ∧ Over (.times 3) results.length c' ∧
      Verdict (.times 3) results (.done ()) ∧
      run.2.2.offered = String.join ((successes results).map fun r => r.report ++ "\n") := by
  intro run
  have hopen : ({} : BoundedSink).Open := ⟨rfl, rfl⟩
  obtain ⟨hreads, -⟩ := execute_repeated hopen.works { readCount := .times 3 } [] flaky
  obtain ⟨results, c', hr, h, hover⟩ := (hreads.ends_iff 4).1 (hreads.counted 3 4 rfl (by decide))
  obtain ⟨hverdict, -, htakes⟩ := hreads.outcome results c' 4 h hover hr
  have hdone : run.1 = .done () := by decide +kernel
  refine ⟨results, c', h, hover, hdone ▸ hverdict, ?_⟩
  show run.2.2.offered = String.join ((successes results).map (shownReading .text))
  simpa using congrArg BoundedSink.offered (hopen.takes htakes)

end

end Diagnostics
end MemsProbe
