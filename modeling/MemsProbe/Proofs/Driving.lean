/-
Driving the idle air control valve.

A loop over an actuator repeats one command until its answers have reached a
goal. `Comes` says how such a loop must come out, and says it of the answers
alone: the goal is reached, for the first time, with the answer to some
command; or a command fails before that; or the user is found to have asked
to stop. The loop itself, its count of what is still to wait for and its
rounds do not come into it.

Both ways of driving the valve are one loop, `driveOn`, with goals of their
own; what each of them counts is what that loop can tell from the answers.
`closeIac_comes` and `openIac_comes` say that they come out so, and in no
other way. To close is to wait for so many answers of zero: others neither
count nor begin the count again. To open is to wait for one that is high
enough.
-/
import Mathlib.Data.List.Induction
import MemsProbe.Link.Scripted
import MemsProbe.Proofs.Script

namespace MemsProbe

namespace Client

variable {σ : Type} [Line σ]

/-- An actuator was worked again and again: each command went well, with these
answers, and the user had not asked to stop before any of them. -/
inductive Drives (actuator : Actuator) : Client σ → List UInt8 → Client σ → Prop
  | nil (c : Client σ) : Drives actuator c [] c
  | cons : c.cancelled = false → c.testActuator actuator = (.ok readback, c₁) → Drives actuator c₁ readbacks c' →
      Drives actuator c (readback :: readbacks) c'

variable {actuator : Actuator} {c c₁ c' : Client σ} {readbacks more : List UInt8}

theorem Drives.trans (h : Drives actuator c readbacks c₁) (h' : Drives actuator c₁ more c') :
    Drives actuator c (readbacks ++ more) c' := by
  induction h with
  | nil => exact h'
  | cons hc ht _ ih => exact .cons hc ht (ih h')

theorem Drives.of_append (h : Drives actuator c (readbacks ++ more) c') :
    ∃ c₁, Drives actuator c readbacks c₁ ∧ Drives actuator c₁ more c' := by
  induction readbacks generalizing c with
  | nil => exact ⟨c, .nil c, h⟩
  | cons readback readbacks ih =>
    cases h with
    | cons hc ht h =>
      obtain ⟨c₁, h₁, h₂⟩ := ih h
      exact ⟨c₁, .cons hc ht h₁, h₂⟩

/-- Each answer took one command, on the line as well. -/
theorem Drives.makes (h : Drives actuator c readbacks c') (hc : c.connected = true) :
    ∃ made, c.Makes made c' ∧ made.map (·.offered) = List.replicate readbacks.length [actuator.code] := by
  induction h with
  | nil c => exact ⟨[], .refl c, rfl⟩
  | cons _ ht _ ih =>
    obtain ⟨a, hm, ho, -⟩ := testActuator_asks hc ht
    obtain ⟨made, hm', ho'⟩ := ih (hm.connected hc)
    exact ⟨a :: made, hm.trans hm', by rw [List.map_cons, ho, ho', List.length_cons, List.replicate_succ]⟩

end Client

namespace Actuation

variable {σ : Type} [Line σ]

/-- The goal was reached with none of these answers. -/
def Unreached (goal : List UInt8 → Prop) (readbacks : List UInt8) : Prop :=
  ∀ k, 0 < k → k ≤ readbacks.length → ¬ goal (readbacks.take k)

/-- So many commands went well, and the goal was reached with none of them. -/
def GoesOn (actuator : Actuator) (goal : List UInt8 → Prop) (c : Client σ) (commands : Nat) (c' : Client σ) : Prop :=
  ∃ readbacks, readbacks.length = commands ∧ c.Drives actuator readbacks c' ∧ Unreached goal readbacks

/-- How a loop over an actuator comes out that is to reach a goal: after how
many commands, with which answer, and the client then. -/
inductive Comes (actuator : Actuator) (goal : List UInt8 → Prop) (c : Client σ) :
    Nat → Outcome ActuationReport → Client σ → Prop
  /-- The last answer reaches the goal, which none before it did. The report
  counts the commands; below 2 ^ 32 that is a count of 32 bits. -/
  | reached : c.Drives actuator (earlier ++ [last]) c' → Unreached goal earlier → goal (earlier ++ [last]) →
      Comes actuator goal c (earlier.length + 1) (.done ⟨actuator, earlier.length + 1, last⟩) c'
  /-- The next command fails. -/
  | failed : c.Drives actuator earlier c₁ → Unreached goal earlier → c₁.cancelled = false →
      c₁.testActuator actuator = (.error e, c') → Comes actuator goal c (earlier.length + 1) (.failed e) c'
  /-- The user has asked to stop. -/
  | asked : c.Drives actuator earlier c' → Unreached goal earlier → c'.cancelled = true →
      Comes actuator goal c earlier.length (.failed .cancelled) c'

variable {actuator : Actuator} {goal : List UInt8 → Prop} {c c₁ c' : Client σ}

theorem Unreached.nil (goal : List UInt8 → Prop) : Unreached goal [] :=
  fun _ hpos hle => absurd hle (Nat.not_le.2 hpos)

theorem Unreached.of_append {readbacks more : List UInt8} (h : Unreached goal (readbacks ++ more)) :
    Unreached goal readbacks := by
  intro k hpos hle
  have := h k hpos (by rw [List.length_append]; omega)
  rwa [List.take_append_of_le_length hle] at this

theorem Unreached.snoc {readbacks : List UInt8} {readback : UInt8} (h : Unreached goal readbacks)
    (hne : ¬ goal (readbacks ++ [readback])) : Unreached goal (readbacks ++ [readback]) := by
  intro k hpos hle
  rw [List.length_append, List.length_singleton] at hle
  by_cases hk : k ≤ readbacks.length
  · rw [List.take_append_of_le_length hk]
    exact h k hpos hk
  · rwa [List.take_of_length_le (by rw [List.length_append, List.length_singleton]; omega)]

/-- A loop that is given a number of commands has come out with that many or
goes on. -/
theorem comes_or_goesOn (actuator : Actuator) (goal : List UInt8 → Prop) (c : Client σ) (commands : Nat) :
    (∃ sent answer c', sent ≤ commands ∧ Comes actuator goal c sent answer c') ∨
      ∃ c', GoesOn actuator goal c commands c' := by
  induction commands with
  | zero => exact .inr ⟨c, [], rfl, .nil c, .nil goal⟩
  | succ commands ih =>
    obtain ⟨sent, answer, c', hle, h⟩ | ⟨c₁, earlier, rfl, hd, hun⟩ := ih
    · exact .inl ⟨sent, answer, c', Nat.le_succ_of_le hle, h⟩
    by_cases hc : c₁.cancelled = true
    · exact .inl ⟨_, _, c₁, Nat.le_succ _, .asked hd hun hc⟩
    have hc : c₁.cancelled = false := Bool.of_not_eq_true hc
    rcases ht : c₁.testActuator actuator with ⟨e | readback, c'⟩
    · exact .inl ⟨_, _, c', Nat.le_refl _, .failed hd hun hc ht⟩
    have hd := hd.trans (.cons hc ht (.nil c'))
    by_cases hg : goal (earlier ++ [readback])
    · exact .inl ⟨_, _, c', Nat.le_refl _, .reached hd hun hg⟩
    · exact .inr ⟨c', earlier ++ [readback], by simp, hd, hun.snoc hg⟩

theorem Comes.ended {commands : Nat} {answer : Outcome ActuationReport} (h : Comes actuator goal c commands answer c') :
    answer ≠ .unfinished := by
  cases h <;> nofun

/-- So many commands are sent as are counted. -/
theorem Comes.makes {commands : Nat} {answer : Outcome ActuationReport} (h : Comes actuator goal c commands answer c')
    (hc : c.connected = true) :
    ∃ made, c.Makes made c' ∧ made.map (·.offered) = List.replicate commands [actuator.code] := by
  cases h with
  | reached hd _ _ => simpa using hd.makes hc
  | failed hd _ _ ht =>
    obtain ⟨made, hm, ho⟩ := hd.makes hc
    obtain ⟨a, hm', ho', -⟩ := Client.testActuator_asks (hm.connected hc) ht
    exact ⟨made ++ [a], hm.trans hm', by rw [List.map_append, ho, List.map_singleton, ho', ← List.replicate_succ']⟩
  | asked hd _ _ => exact hd.makes hc

theorem Comes.attempts {commands : Nat} {report : ActuationReport}
    (h : Comes actuator goal c commands (.done report) c') : report.attempts = commands := by
  cases h
  rfl

/-! ## A loop with a goal -/

/-- Works an actuator on, after some answers, until they have reached a goal. -/
def driveOn (actuator : Actuator) (goal : List UInt8 → Prop) [DecidablePred goal] :
    (rounds : Nat) → List UInt8 → Client σ → Outcome ActuationReport × Client σ
  | 0, _, c => (.unfinished, c)
  | rounds + 1, readbacks, c =>
    if c.cancelled then (.failed .cancelled, c)
    else
      match c.testActuator actuator with
      | (.error e, c) => (.failed e, c)
      | (.ok readback, c) =>
        if goal (readbacks ++ [readback]) then (.done ⟨actuator, readbacks.length + 1, readback⟩, c)
        else driveOn actuator goal rounds (readbacks ++ [readback]) c

/-- The second has come out as the first, but for notes taken at the end. -/
structure EndsAlike (run run' : Outcome ActuationReport × Client σ) : Prop where
  answer : run'.1 = run.1
  alike : Client.Alike run.2 run'.2
  going : run.1 = .unfinished → run'.2 = run.2

section

variable [DecidablePred goal]

/-- Answers that have not reached the goal take one round each. -/
theorem driveOn_drives {readbacks : List UInt8} (h : c.Drives actuator readbacks c') (hun : Unreached goal readbacks)
    (rounds : Nat) :
    driveOn actuator goal (readbacks.length + rounds) [] c = driveOn actuator goal rounds readbacks c' := by
  -- What the loop has heard grows at its end, so it is the last answer that is split off.
  induction readbacks using List.reverseRecOn generalizing rounds c' with
  | nil =>
    cases h
    simp
  | append_singleton earlier readback ih =>
    obtain ⟨c₁, hd, hlast⟩ := h.of_append
    cases hlast with
    | cons hc ht hnil =>
      cases hnil
      have hshort : ¬ goal (earlier ++ [readback]) := by
        have := hun _ (by simp) (Nat.le_refl _)
        rwa [List.take_length] at this
      rw [List.length_append, List.length_singleton, Nat.add_assoc, Nat.add_comm 1, ih hd hun.of_append, driveOn]
      simp only [hc, ht, if_neg hshort, Bool.false_eq_true, if_false]

theorem GoesOn.driveOn {rounds : Nat} (h : GoesOn actuator goal c rounds c') :
    Actuation.driveOn actuator goal rounds [] c = (.unfinished, c') := by
  obtain ⟨readbacks, rfl, hd, hun⟩ := h
  exact driveOn_drives hd hun 0

/-- With a round for each command, and one more to find that the user has
asked to stop, the loop is as it must come out. -/
theorem Comes.driveOn {commands rounds : Nat} {answer : Outcome ActuationReport}
    (h : Comes actuator goal c commands answer c') (hr : commands ≤ rounds) :
    (commands = rounds ∧ GoesOn actuator goal c rounds c') ∨
      Actuation.driveOn actuator goal rounds [] c = (answer, c') := by
  obtain ⟨spare, rfl⟩ := Nat.exists_eq_add_of_le hr
  cases h with
  | @reached earlier last _ hd hun hg =>
    obtain ⟨c₁, hd, hlast⟩ := hd.of_append
    cases hlast with
    | cons hc ht hnil =>
      cases hnil
      refine .inr ?_
      rw [Nat.add_assoc, Nat.add_comm 1, driveOn_drives hd hun, Actuation.driveOn]
      simp only [hc, ht, if_pos hg, Bool.false_eq_true, if_false]
  | failed hd hun hc ht =>
    refine .inr ?_
    rw [Nat.add_assoc, Nat.add_comm 1, driveOn_drives hd hun, Actuation.driveOn]
    simp only [hc, ht, Bool.false_eq_true, if_false]
  | asked hd hun hc =>
    cases spare with
    | zero => exact .inl ⟨rfl, _, rfl, hd, hun⟩
    | succ spare =>
      refine .inr ?_
      rw [driveOn_drives hd hun, Actuation.driveOn, if_pos hc]

theorem EndsAlike.comes {rounds commands : Nat} {answer : Outcome ActuationReport}
    {run : Outcome ActuationReport × Client σ} (halike : EndsAlike (Actuation.driveOn actuator goal rounds [] c) run)
    (h : Comes actuator goal c commands answer c') (hr : commands ≤ rounds) :
    (commands = rounds ∧ GoesOn actuator goal c rounds c') ∨ run.1 = answer ∧ Client.Alike c' run.2 := by
  obtain hon | hend := h.driveOn hr
  · exact .inl hon
  · have hanswer := halike.answer
    have hclient := halike.alike
    rw [hend] at hanswer hclient
    exact .inr ⟨hanswer, hclient⟩

/-- Such a loop has come out as it must, or it goes on. -/
theorem EndsAlike.ended_or_goesOn {rounds : Nat} {run : Outcome ActuationReport × Client σ}
    (halike : EndsAlike (Actuation.driveOn actuator goal rounds [] c) run) :
    (∃ commands c', commands ≤ rounds ∧ Comes actuator goal c commands run.1 c' ∧ Client.Alike c' run.2) ∨
      run.1 = .unfinished ∧ GoesOn actuator goal c rounds run.2 := by
  have hgoes : ∀ {c'}, GoesOn actuator goal c rounds c' →
      run.1 = .unfinished ∧ GoesOn actuator goal c rounds run.2 := by
    intro c' hon
    have hanswer := halike.answer
    have hclient := halike.going
    rw [hon.driveOn] at hanswer hclient
    rw [hclient rfl]
    exact ⟨hanswer, hon⟩
  obtain ⟨commands, answer, c', hle, h⟩ | ⟨c', hon⟩ := comes_or_goesOn actuator goal c rounds
  · obtain ⟨-, hon⟩ | ⟨rfl, hclient⟩ := halike.comes h hle
    · exact .inr (hgoes hon)
    · exact .inl ⟨commands, c', hle, h, hclient⟩
  · exact .inr (hgoes hon)

/-- A loop comes out, whatever number of rounds it is given, as its answers
make it come out. -/
structure ComesOut (actuator : Actuator) (goal : List UInt8 → Prop) (c : Client σ)
    (run : Nat → Outcome ActuationReport × Client σ) : Prop where
  /-- It ends in no other way. -/
  ended : ∀ rounds, (run rounds).1 ≠ .unfinished →
    ∃ commands c', commands ≤ rounds ∧ Comes actuator goal c commands (run rounds).1 c' ∧ Client.Alike c' (run rounds).2
  /-- As long as it has not ended, every round has sent a command that was
  answered short of the goal. -/
  going : ∀ rounds, (run rounds).1 = .unfinished → GoesOn actuator goal c rounds (run rounds).2
  /-- It does end so, once there are rounds enough. -/
  comes : ∀ commands answer c', Comes actuator goal c commands answer c' →
    ∀ rounds, commands < rounds → (run rounds).1 = answer ∧ Client.Alike c' (run rounds).2
  /-- What is sent is one byte for each command. -/
  sends : c.connected = true → ∀ rounds, ∃ commands made, commands ≤ rounds ∧
    ((run rounds).1 = .unfinished → commands = rounds) ∧
    ((run rounds).1 ≠ .unfinished → ∃ c', Comes actuator goal c commands (run rounds).1 c') ∧
    c.Makes made (run rounds).2 ∧ made.map (·.offered) = List.replicate commands [actuator.code]

theorem comesOut_of_endsAlike {run : Nat → Outcome ActuationReport × Client σ}
    (halike : ∀ rounds, EndsAlike (Actuation.driveOn actuator goal rounds [] c) (run rounds)) :
    ComesOut actuator goal c run where
  ended rounds hne := (halike rounds).ended_or_goesOn.resolve_right fun h => hne h.1
  going rounds hun := by
    obtain ⟨_, _, -, h, -⟩ | ⟨-, hon⟩ := (halike rounds).ended_or_goesOn
    · exact absurd hun h.ended
    · exact hon
  comes commands answer c' h rounds hr := by
    obtain ⟨hround, -⟩ | hcomes := (halike rounds).comes h (Nat.le_of_lt hr)
    · exact absurd hround (Nat.ne_of_lt hr)
    · exact hcomes
  sends hc rounds := by
    obtain ⟨commands, c', hle, h, hclient⟩ | ⟨hun, readbacks, rfl, hd, -⟩ := (halike rounds).ended_or_goesOn
    · obtain ⟨made, hm, ho⟩ := h.makes hc
      exact ⟨commands, made, hle, fun hun => absurd hun h.ended, fun _ => ⟨c', h⟩, hm.alike hclient, ho⟩
    · obtain ⟨made, hm, ho⟩ := hd.makes hc
      exact ⟨readbacks.length, made, Nat.le_refl _, fun _ => rfl, fun hne => absurd hun hne, hm, ho⟩

end

/-! ## Closing -/

/-- So many of the answers are zero. -/
def Closed (limit : Nat) (readbacks : List UInt8) : Prop :=
  limit ≤ readbacks.count 0

instance (limit : Nat) : DecidablePred (Closed limit) :=
  fun readbacks => Nat.decLe limit (readbacks.count 0)

theorem stillToWait_count (limit : Nat) (readbacks : List UInt8) (readback : UInt8) :
    stillToWait (limit - readbacks.count 0) readback = limit - (readbacks ++ [readback]).count 0 := by
  rw [stillToWait, List.count_append, List.count_singleton]
  split
  next h => simp [h, Nat.sub_sub]
  next h => simp [h]

/-- What is still to be waited for is what the answers lack. -/
theorem closeFrom_endsAlike (limit rounds : Nat) (readbacks : List UInt8) (c : Client σ) :
    EndsAlike (driveOn .closeIac (Closed limit) rounds readbacks c)
      (closeFrom rounds (limit - readbacks.count 0) readbacks.length c) := by
  induction rounds generalizing readbacks c with
  | zero => exact ⟨rfl, .refl c, fun _ => rfl⟩
  | succ rounds ih =>
    rw [driveOn, closeFrom]
    by_cases hc : c.cancelled = true
    · rw [if_pos hc, if_pos hc]
      exact ⟨rfl, .refl c, fun _ => rfl⟩
    rw [if_neg hc, if_neg hc]
    rcases c.testActuator .closeIac with ⟨e | readback, c₁⟩
    · exact ⟨rfl, .refl c₁, fun _ => rfl⟩
    have hgoal : stillToWait (limit - readbacks.count 0) readback = 0 ↔ Closed limit (readbacks ++ [readback]) := by
      rw [stillToWait_count, Nat.sub_eq_zero_iff_le, Closed]
    dsimp only
    by_cases hg : Closed limit (readbacks ++ [readback])
    · rw [if_pos hg, if_pos (hgoal.2 hg)]
      exact ⟨rfl, .note c₁ _, nofun⟩
    · rw [if_neg hg, if_neg (mt hgoal.1 hg), stillToWait_count]
      have hrest := ih (readbacks ++ [readback]) c₁
      rwa [List.length_append, List.length_singleton] at hrest

/-- With a round for each command, and one more to find that the user has
asked to stop, closing is as it must come out. -/
theorem Comes.closeFrom {limit commands rounds : Nat} {answer : Outcome ActuationReport}
    (h : Comes .closeIac (Closed limit) c commands answer c') (hr : commands ≤ rounds) :
    (commands = rounds ∧ GoesOn .closeIac (Closed limit) c rounds c') ∨
      (Actuation.closeFrom rounds limit 0 c).1 = answer ∧
        Client.Alike c' (Actuation.closeFrom rounds limit 0 c).2 :=
  (closeFrom_endsAlike limit rounds [] c).comes h hr

/-- Closing has come out as it must, or it goes on. -/
theorem closeFrom_comes (limit : Nat) (c : Client σ) (rounds : Nat) :
    let run := Actuation.closeFrom rounds limit 0 c
    (∃ commands c', commands ≤ rounds ∧ Comes .closeIac (Closed limit) c commands run.1 c' ∧
        Client.Alike c' run.2) ∨
      run.1 = .unfinished ∧ GoesOn .closeIac (Closed limit) c rounds run.2 :=
  (closeFrom_endsAlike limit rounds [] c).ended_or_goesOn

/-- The answer that reaches the goal is a zero, if there was one to wait for. -/
theorem Comes.last_zero {limit commands : Nat} {report : ActuationReport}
    (h : Comes .closeIac (Closed limit) c commands (.done report) c') (hpos : 0 < limit) : report.readback = 0 := by
  cases h with
  | @reached earlier last _ _ hun hg =>
    have hless : earlier.count 0 < limit := by
      rcases Nat.eq_zero_or_pos earlier.length with hnil | hsome
      · rwa [List.length_eq_zero_iff.1 hnil, List.count_nil]
      · have := hun _ hsome (Nat.le_refl _)
        rw [List.take_length, Closed] at this
        exact Nat.not_le.1 this
    by_contra hne
    rw [Closed, List.count_append, List.count_singleton, beq_false_of_ne hne] at hg
    exact absurd hg (Nat.not_le.2 hless)

/-- **Closing comes out as its answers say**, for any limit and any line. It
ends in one of three ways, each of which fixes how many commands were sent:
well, with the first answer that makes for enough zeros among the answers so
far; with the failure of a command that comes before that; or cancelled, at
the first command that the user is found to have asked to stop before. When
none of these comes, all answers went well and one command was sent in every
round. No other command is sent. The last answer of a closing that went well
is zero unless nothing was waited for. -/
theorem closeIac_comes (limit : UInt8) (c : Client σ) :
    let run := fun rounds => closeIac rounds limit c
    let Comes := Comes .closeIac (Closed limit.toNat) c
    let Sends := fun commands c' =>
      ∃ made, c.Makes made c' ∧ made.map (·.offered) = List.replicate commands [Actuator.closeIac.code]
    (∀ rounds, (run rounds).1 ≠ .unfinished →
        ∃ commands c', commands ≤ rounds ∧ Comes commands (run rounds).1 c' ∧ Client.Alike c' (run rounds).2) ∧
      (∀ rounds, (run rounds).1 = .unfinished → GoesOn .closeIac (Closed limit.toNat) c rounds (run rounds).2) ∧
      (∀ commands answer c', Comes commands answer c' →
        ∀ rounds, commands < rounds → (run rounds).1 = answer ∧ Client.Alike c' (run rounds).2) ∧
      (c.connected = true →
        (∀ commands answer c', Comes commands answer c' → Sends commands c') ∧
          ∀ rounds, (run rounds).1 = .unfinished → Sends rounds (run rounds).2) ∧
      ∀ rounds report, (run rounds).1 = .done report → 0 < limit → report.readback = 0 := by
  intro run Comes Sends
  have hended : ∀ rounds, (run rounds).1 ≠ .unfinished →
      ∃ commands c', commands ≤ rounds ∧ Comes commands (run rounds).1 c' ∧ Client.Alike c' (run rounds).2 :=
    fun rounds hne => (closeFrom_comes limit.toNat c rounds).resolve_right fun h => hne h.1
  have hgoing : ∀ rounds, (run rounds).1 = .unfinished →
      GoesOn .closeIac (Closed limit.toNat) c rounds (run rounds).2 := by
    intro rounds hun
    obtain ⟨_, _, -, h, -⟩ | ⟨-, hon⟩ := closeFrom_comes limit.toNat c rounds
    · exact absurd hun h.ended
    · exact hon
  refine ⟨hended, hgoing, fun commands answer c' h rounds hr => ?_, fun hc => ⟨fun _ _ _ h => h.makes hc, ?_⟩, ?_⟩
  · obtain ⟨hround, -⟩ | hcomes := h.closeFrom (Nat.le_of_lt hr)
    · exact absurd hround (Nat.ne_of_lt hr)
    · exact hcomes
  · intro rounds hun
    obtain ⟨readbacks, rfl, hd, -⟩ := hgoing rounds hun
    exact hd.makes hc
  · intro rounds report hdone hpos
    obtain ⟨commands, c', -, h, -⟩ := hended rounds (by simp [hdone])
    rw [hdone] at h
    exact h.last_zero hpos

/-- An ECU whose valve takes its time: it answers with 5, 0, 7 and
then with zeros. -/
def sluggish : Client ScriptedLine where
  link := { line := { replies := fun b => [[.piece [b, 5]], [.piece [b, 0]], [.piece [b, 7]], [.piece [b, 0]]] } }

/-- Two zeros are waited for, and the second is the fourth answer. -/
theorem sluggish_comes :
    ∃ c', Comes .closeIac (Closed 2) sluggish 4 (.done ⟨.closeIac, 4, 0⟩) c' ∧
      ∃ made, sluggish.Makes made c' ∧ made.map (·.offered) = List.replicate 4 [0xFD] := by
  have hdone : (closeIac 8 2 sluggish).1 = .done ⟨.closeIac, 4, 0⟩ := by decide +kernel
  obtain ⟨hended, -, -, hsends, -⟩ := closeIac_comes 2 sluggish
  obtain ⟨commands, c', -, h, -⟩ := hended 8 (by simp [hdone])
  rw [hdone] at h
  obtain rfl : 4 = commands := h.attempts
  exact ⟨c', h, (hsends rfl).1 _ _ _ h⟩

/-! ## Opening -/

/-- One of the answers is that of an open valve, 0xB4 or more. -/
def Opened (readbacks : List UInt8) : Prop :=
  ∃ readback ∈ readbacks, 0xB4 ≤ readback

instance : DecidablePred Opened :=
  fun readbacks => inferInstanceAs (Decidable (∃ readback ∈ readbacks, 0xB4 ≤ readback))

theorem opened_snoc {readbacks : List UInt8} (hshort : ¬ Opened readbacks) (readback : UInt8) :
    Opened (readbacks ++ [readback]) ↔ openThreshold ≤ readback := by
  constructor
  · rintro ⟨r, hr, hopen⟩
    rcases List.mem_append.1 hr with hr | hr
    · exact absurd ⟨r, hr, hopen⟩ hshort
    · rwa [List.mem_singleton.1 hr] at hopen
  · intro hopen
    exact ⟨readback, List.mem_append_right readbacks List.mem_cons_self, hopen⟩

/-- That the goal was not reached is to say that every answer was too low. -/
theorem unreached_opened {readbacks : List UInt8} :
    Unreached Opened readbacks ↔ ∀ readback ∈ readbacks, readback < 0xB4 := by
  constructor
  · intro hun readback hr
    have hshort := hun readbacks.length (List.length_pos_of_mem hr) (Nat.le_refl _)
    rw [List.take_length] at hshort
    exact UInt8.not_le.1 fun hopen => hshort ⟨readback, hr, hopen⟩
  · rintro hlow k - - ⟨readback, hr, hopen⟩
    exact UInt8.not_le.2 (hlow readback (List.mem_of_mem_take hr)) hopen

theorem openFrom_endsAlike (rounds : Nat) {readbacks : List UInt8} (hshort : ¬ Opened readbacks) (c : Client σ) :
    EndsAlike (driveOn .openIac Opened rounds readbacks c) (openFrom rounds readbacks.length c) := by
  induction rounds generalizing readbacks c with
  | zero => exact ⟨rfl, .refl c, fun _ => rfl⟩
  | succ rounds ih =>
    rw [driveOn, openFrom]
    by_cases hc : c.cancelled = true
    · rw [if_pos hc, if_pos hc]
      exact ⟨rfl, .note c _, nofun⟩
    rw [if_neg hc, if_neg hc]
    rcases c.testActuator .openIac with ⟨e | readback, c₁⟩
    · exact ⟨rfl, .refl c₁, fun _ => rfl⟩
    have hgoal := opened_snoc hshort readback
    dsimp only
    by_cases hg : Opened (readbacks ++ [readback])
    · rw [if_pos hg, if_pos (hgoal.1 hg)]
      exact ⟨rfl, .note c₁ _, nofun⟩
    · rw [if_neg hg, if_neg (mt hgoal.2 hg)]
      have hrest := ih hg c₁
      rwa [List.length_append, List.length_singleton] at hrest

/-- **Opening comes out as its answers say**, over any line. As long as all
commands go well, the answers are too low and the user is not found to have
asked to stop, it goes on, and each round sends one command and nothing else.
It ends well with the first answer that is high enough, of which alone the
report tells besides the number of commands; otherwise with the failure of the
first command that fails, or cancelled at the first command that the user is
found to have asked to stop before. Nothing is sent after any of these. -/
theorem openIac_comes (c : Client σ) :
    let run := fun rounds => openIac rounds c
    let Low := fun readbacks : List UInt8 => ∀ readback ∈ readbacks, readback < 0xB4
    ComesOut .openIac Opened c run ∧
      (∀ report, (∃ rounds, (run rounds).1 = .done report) ↔
        ∃ earlier c', c.Drives .openIac (earlier ++ [report.readback]) c' ∧ Low earlier ∧ 0xB4 ≤ report.readback ∧
          report.attempts = earlier.length + 1 ∧ report.actuator = .openIac) ∧
      ∀ e, (∃ rounds, (run rounds).1 = .failed e) ↔
        ∃ earlier c', c.Drives .openIac earlier c' ∧ Low earlier ∧
          (c'.cancelled = true ∧ e = .cancelled ∨
            c'.cancelled = false ∧ (c'.testActuator .openIac).1 = .error e) := by
  intro run Low
  have hout : ComesOut .openIac Opened c run :=
    comesOut_of_endsAlike fun rounds => openFrom_endsAlike rounds (by simp [Opened]) c
  -- What the answers make for is found with one round more than there are commands.
  have hends : ∀ {answer commands c'}, Comes .openIac Opened c commands answer c' →
      ∃ rounds, (run rounds).1 = answer := by
    intro answer commands c' h
    exact ⟨commands + 1, (hout.comes commands answer c' h (commands + 1) (Nat.lt_succ_self _)).1⟩
  refine ⟨hout, fun report => ⟨?_, ?_⟩, fun e => ⟨?_, ?_⟩⟩
  · rintro ⟨rounds, hdone⟩
    obtain ⟨commands, c', -, h, -⟩ := hout.ended rounds (by simp [hdone])
    rw [hdone] at h
    cases h with
    | @reached earlier last _ hd hun hg =>
      have hshort : ¬ Opened earlier := fun ⟨r, hr, hopen⟩ =>
        UInt8.not_le.2 (unreached_opened.1 hun r hr) hopen
      exact ⟨earlier, c', hd, unreached_opened.1 hun, (opened_snoc hshort last).1 hg, rfl, rfl⟩
  · rintro ⟨earlier, c', hd, hlow, hopen, hattempts, hactuator⟩
    have hgoal : Opened (earlier ++ [report.readback]) :=
      ⟨report.readback, List.mem_append_right earlier List.mem_cons_self, hopen⟩
    obtain ⟨actuator, attempts, readback⟩ := report
    obtain rfl : attempts = earlier.length + 1 := hattempts
    obtain rfl : actuator = .openIac := hactuator
    exact hends (.reached hd (unreached_opened.2 hlow) hgoal)
  · rintro ⟨rounds, hfailed⟩
    obtain ⟨commands, c', -, h, -⟩ := hout.ended rounds (by simp [hfailed])
    rw [hfailed] at h
    cases h with
    | @failed earlier c₁ _ _ hd hun hc ht =>
      exact ⟨earlier, c₁, hd, unreached_opened.1 hun, .inr ⟨hc, by rw [ht]⟩⟩
    | @asked earlier _ hd hun hc => exact ⟨earlier, c', hd, unreached_opened.1 hun, .inl ⟨hc, rfl⟩⟩
  · rintro ⟨earlier, c₁, hd, hlow, ⟨hc, rfl⟩ | ⟨hc, ht⟩⟩
    · exact hends (.asked hd (unreached_opened.2 hlow) hc)
    · exact hends (.failed hd (unreached_opened.2 hlow) hc (Prod.ext ht rfl))

/-- An ECU whose valve opens with the third answer, and whose user asks to
stop while that answer is being read. -/
def reluctant : Client ScriptedLine where
  link :=
    { line :=
        { replies := fun b => [[.piece [b, 0x10]], [.piece [b, 0xB3]], [.piece [b, 0xB4]]]
          stopAtRead := some 6 } }

/-- The valve is open, and it does not matter that the user has asked to stop
by then. -/
theorem reluctant_comes :
    ∃ c', Comes .openIac Opened reluctant 3 (.done ⟨.openIac, 3, 0xB4⟩) c' ∧ c'.cancelled = true ∧
      ∃ earlier c₁, reluctant.Drives .openIac (earlier ++ [0xB4]) c₁ ∧ earlier.length + 1 = 3 := by
  have hdone : (openIac 8 reluctant).1 = .done ⟨.openIac, 3, 0xB4⟩ := by decide +kernel
  have hstopped : (openIac 8 reluctant).2.cancelled = true := by decide +kernel
  obtain ⟨hout, hok, -⟩ := openIac_comes reluctant
  obtain ⟨commands, c', -, h, halike⟩ := hout.ended 8 (by simp [hdone])
  rw [hdone] at h
  obtain rfl : 3 = commands := h.attempts
  obtain ⟨earlier, c₁, hd, -, -, hattempts, -⟩ := (hok _).1 ⟨8, hdone⟩
  refine ⟨c', h, ?_, earlier, c₁, hd, hattempts.symm⟩
  rwa [Client.cancelled, Link.cancelled, halike.line] at hstopped

end Actuation
end MemsProbe
