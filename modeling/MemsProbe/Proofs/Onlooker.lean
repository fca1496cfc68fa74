/-
An onlooker makes no difference.

To put a client under observation is to have its line watched. If the wish
to stop is one that lasts over the line, the watched line says of it just
what the line itself does; so the two mirror each other, and the run that is
watched is the run that would have been without (`run_watched`). Scripted
lines are of this kind.
-/
import MemsProbe.Link.Scripted
import MemsProbe.Proofs.Mirrors
import MemsProbe.Proofs.Watched

namespace MemsProbe

/-- The wish to stop is never taken back. -/
structure Line.Lasting (σ : Type) [Line σ] : Prop where
  write (offered : List UInt8) {s : σ} : cancelled s = true → cancelled (Line.write offered s).2 = true
  read (room : Nat) {s : σ} : cancelled s = true → cancelled (Line.read room s).2 = true
  setTimeout (milliseconds : Nat) {s : σ} :
    cancelled s = true → cancelled (Line.setTimeout milliseconds s).2 = true
  idle {s : σ} : cancelled s = true → cancelled (Line.idle s) = true

variable {σ : Type} [Line σ]

/-- The first link is the second with an onlooker, who knows whether the user
has asked to stop. -/
structure Link.Observes (l : Link (Watched σ)) (m : Link σ) : Prop where
  line : l.line.line = m.line
  calls : l.calls = m.calls
  asked : l.line.asked = m.cancelled

/-- The client under observation from now on. -/
def Client.watched (c : Client σ) : Client (Watched σ) where
  link :=
    { line := { line := c.link.line, asked := c.cancelled }
      calls := c.link.calls
      notes := c.link.notes }
  connected := c.connected

theorem Client.watched_twins (c : Client σ) : Client.Twins Link.Observes c.watched c :=
  ⟨⟨rfl, rfl, rfl⟩, rfl⟩

theorem asked_of_lasting {before after : Bool} (h : before = true → after = true) : (before || after) = after := by
  cases before with
  | false => rfl
  | true => exact (h rfl).symm

/-- Only the log and the notes of a link under observation are its own. -/
theorem Link.Observes.own {l : Link (Watched σ)} {m : Link σ} (h : l.Observes m) :
    ∃ log notes, l = { line := { line := m.line, asked := m.cancelled, log }, calls := m.calls, notes } := by
  refine ⟨l.line.log, l.notes, ?_⟩
  rw [← h.line, ← h.calls, ← h.asked]

/-- Every call is answered under observation as it would be without. -/
theorem observes_mirrors (lasting : Line.Lasting σ) : Link.Mirrors (Link.Observes (σ := σ)) where
  write offered := by
    intro l m h
    obtain ⟨log, notes, rfl⟩ := h.own
    exact ⟨_, _, _, rfl, rfl, rfl, rfl, asked_of_lasting (lasting.write offered)⟩
  read room := by
    intro l m h
    obtain ⟨log, notes, rfl⟩ := h.own
    exact ⟨_, _, _, rfl, rfl, rfl, rfl, asked_of_lasting (lasting.read room)⟩
  setTimeout milliseconds := by
    intro l m h
    obtain ⟨log, notes, rfl⟩ := h.own
    exact ⟨_, _, _, rfl, rfl, rfl, rfl, asked_of_lasting (lasting.setTimeout milliseconds)⟩
  pause milliseconds h := ⟨h.line, congrArg (·.push (.pause milliseconds)) h.calls, h.asked⟩
  idle h := by
    obtain ⟨log, notes, rfl⟩ := h.own
    exact ⟨rfl, rfl, asked_of_lasting lasting.idle⟩
  cancelled h := h.asked
  alike h hline hcalls hline' hcalls' := by
    refine ⟨?_, ?_, ?_⟩
    · rw [hline, hline', h.line]
    · rw [hcalls, hcalls', h.calls]
    · rw [hline, h.asked, Link.cancelled, Link.cancelled, hline']

/-- A run comes to the same under observation. -/
theorem Diagnostics.run_watched {ω : Type} [Sink ω] (lasting : Line.Lasting σ) (options : RunOptions) (rounds : Nat)
    (command : Command) (input : List UInt8) (c : Client σ) (out : ω) :
    let watched := run options rounds command input c.watched out
    let plain := run options rounds command input c out
    watched.1 = plain.1 ∧ watched.2.2 = plain.2.2 ∧ watched.2.1.link.Observes plain.2.1.link := by
  obtain ⟨answer, w, c', out', hw, hc, hafter⟩ :=
    run_mirrors (observes_mirrors lasting) options rounds command input c.watched_twins out
  dsimp only
  rw [hw, hc]
  exact ⟨rfl, rfl, hafter.links⟩

/-! ## Scripted lines -/

namespace ScriptedLine

variable {s : ScriptedLine}

theorem accept_stopped (bytes : List UInt8) : (s.accept bytes).stopped = s.stopped := by
  rw [ScriptedLine.accept]
  induction bytes generalizing s with
  | nil => rfl
  | cons b bytes ih =>
    have hanswer : (s.answer b).stopped = s.stopped := by
      rw [answer]
      split <;> rfl
    rw [List.foldl_cons, ih, hanswer]

theorem writeWith_stopped (offered : List UInt8) (a : WriteAnswer) :
    (s.writeWith offered a).2.stopped = s.stopped := by
  cases a with
  | all => exact accept_stopped offered
  | count taken => exact accept_stopped (offered.take taken)
  | fault f => rfl

theorem lasting : Line.Lasting ScriptedLine where
  write offered s h := by
    have hcount : s.countWrite.stopped = true := by
      rw [countWrite, show s.stopped = true from h, Bool.true_or]
    show (s.write offered).2.stopped = true
    rw [ScriptedLine.write]
    split
    · rw [writeWith_stopped, hcount]
    · rw [writeWith_stopped]
      exact hcount
  read room s h := by
    have hcount : s.countRead.stopped = true := by
      rw [countRead, show s.stopped = true from h, Bool.true_or]
    show (s.read room).2.stopped = true
    rw [ScriptedLine.read]
    split
    · exact hcount
    · exact hcount
    · split <;> exact hcount
  setTimeout milliseconds s h := by
    show (s.setTimeout milliseconds).2.stopped = true
    rw [ScriptedLine.setTimeout]
    split <;> exact h
  idle h := h

end ScriptedLine

end MemsProbe
