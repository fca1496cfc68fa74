/-
Where calls lead a line.

What a line will do has to be promised for the whole of a session before it
begins, and a line may change its ways with every call. `Leads` gathers the
states that any calls can bring about, so that a promise about a state is
one about all states it leads to. The promise that most sessions need is
that the user never asks to stop; a scripted line keeps it when its script
has no such request.
-/
import MemsProbe.Link.Scripted

namespace MemsProbe

namespace Line

variable {σ : Type} [Line σ]

/-- The states that calls lead a line to. -/
inductive Leads : σ → σ → Prop
  | refl (s : σ) : Leads s s
  | write (offered : List UInt8) : Leads s t → Leads s (Line.write offered t).2
  | read (room : Nat) : Leads s t → Leads s (Line.read room t).2
  | setTimeout (milliseconds : Nat) : Leads s t → Leads s (Line.setTimeout milliseconds t).2
  | idle : Leads s t → Leads s (Line.idle t)

/-- The user never asks to stop, whatever is done over the line. -/
def NeverStops (s : σ) : Prop :=
  ∀ t, Leads s t → cancelled t = false

theorem Leads.trans {s t u : σ} (h : Leads s t) (h' : Leads t u) : Leads s u := by
  induction h' with
  | refl => exact h
  | write offered _ ih => exact ih.write offered
  | read room _ ih => exact ih.read room
  | setTimeout milliseconds _ ih => exact ih.setTimeout milliseconds
  | idle _ ih => exact ih.idle

theorem NeverStops.leads {s t : σ} (h : NeverStops s) (hl : Leads s t) : NeverStops t :=
  fun u hu => h u (hl.trans hu)

theorem NeverStops.read {s t : σ} {room : Nat} {answer} (h : NeverStops s)
    (hr : Line.read room s = (answer, t)) : NeverStops t := by
  obtain rfl : (Line.read room s).2 = t := by rw [hr]
  exact h.leads ((Leads.refl s).read room)

theorem NeverStops.write {s t : σ} {offered : List UInt8} {taken} (h : NeverStops s)
    (hw : Line.write offered s = (taken, t)) : NeverStops t := by
  obtain rfl : (Line.write offered s).2 = t := by rw [hw]
  exact h.leads ((Leads.refl s).write offered)

end Line

/-! ## Scripted lines -/

namespace ScriptedLine

/-- No request to stop has come, and none is due. -/
structure Unstopped (s : ScriptedLine) : Prop where
  atRead : s.stopAtRead = none
  atWrite : s.stopAtWrite = none
  stopped : s.stopped = false

variable {s : ScriptedLine}

theorem Unstopped.accept (h : s.Unstopped) (bytes : List UInt8) : (s.accept bytes).Unstopped := by
  rw [ScriptedLine.accept]
  induction bytes generalizing s with
  | nil => exact h
  | cons b bytes ih =>
    refine ih ?_
    rw [answer]
    split <;> exact ⟨h.atRead, h.atWrite, h.stopped⟩

theorem Unstopped.countWrite (h : s.Unstopped) : s.countWrite.Unstopped :=
  ⟨h.atRead, h.atWrite, by simp [ScriptedLine.countWrite, isDue, h.atWrite, h.stopped]⟩

theorem Unstopped.countRead (h : s.Unstopped) : s.countRead.Unstopped :=
  ⟨h.atRead, h.atWrite, by simp [ScriptedLine.countRead, isDue, h.atRead, h.stopped]⟩

theorem Unstopped.writeWith (h : s.Unstopped) (offered : List UInt8) (a : WriteAnswer) :
    (ScriptedLine.writeWith offered s a).2.Unstopped := by
  cases a with
  | all => exact h.accept offered
  | count taken => exact h.accept (offered.take taken)
  | fault f => exact h

theorem Unstopped.write (h : s.Unstopped) (offered : List UInt8) : (s.write offered).2.Unstopped := by
  rw [ScriptedLine.write]
  split
  · exact h.countWrite.writeWith offered .all
  next a later _ =>
    have hl : ({ s.countWrite with writeAnswers := later } : ScriptedLine).Unstopped :=
      ⟨h.countWrite.atRead, h.countWrite.atWrite, h.countWrite.stopped⟩
    exact hl.writeWith offered a

theorem Unstopped.read (h : s.Unstopped) (room : Nat) : (s.read room).2.Unstopped := by
  have hc := h.countRead
  rw [ScriptedLine.read]
  split
  · exact ⟨hc.atRead, hc.atWrite, hc.stopped⟩
  · exact ⟨hc.atRead, hc.atWrite, hc.stopped⟩
  · split <;> exact hc

theorem Unstopped.setTimeout (h : s.Unstopped) (milliseconds : Nat) :
    (s.setTimeout milliseconds).2.Unstopped := by
  rw [ScriptedLine.setTimeout]
  split <;> exact h

theorem Unstopped.neverStops (h : s.Unstopped) : Line.NeverStops s := by
  intro t hl
  suffices ht : t.Unstopped from ht.stopped
  induction hl with
  | refl => exact h
  | write offered _ ih => exact ih.write offered
  | read room _ ih => exact ih.read room
  | setTimeout milliseconds _ ih => exact ih.setTimeout milliseconds
  | idle _ ih => exact ih

end ScriptedLine
end MemsProbe
