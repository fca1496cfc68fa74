/-
Sinks that take whatever they are offered.

As with a line, what a sink will do has to be promised for the whole of a
run before it begins. `Works` promises that no write and no flush fails, in
the state at hand and in all states that writes and flushes lead to.
-/
import MemsProbe.Sink

namespace MemsProbe

namespace Sink

variable {ω : Type} [Sink ω]

/-- The states that writes and flushes lead a sink to. -/
inductive Leads : ω → ω → Prop
  | refl (s : ω) : Leads s s
  | write (text : String) : Leads s t → Leads s (Sink.write text t).2
  | flush : Leads s t → Leads s (Sink.flush t).2

/-- Nothing that is written is ever refused. -/
def Works (s : ω) : Prop :=
  ∀ t, Leads s t → (∀ text, (Sink.write text t).1 = .ok ()) ∧ (Sink.flush t).1 = .ok ()

variable {s t u : ω}

theorem Leads.trans (h : Leads s t) (h' : Leads t u) : Leads s u := by
  induction h' with
  | refl => exact h
  | write text _ ih => exact ih.write text
  | flush _ ih => exact ih.flush

theorem Works.leads (h : Works s) (hl : Leads s t) : Works t :=
  fun u hu => h u (hl.trans hu)

theorem Works.print (h : Works s) (text : String) : ∃ t, Sink.print text s = (.ok (), t) ∧ Works t := by
  unfold Sink.print
  by_cases hempty : text.isEmpty = true
  · exact ⟨s, by rw [if_pos hempty], h⟩
  · have hw : Sink.write text s = (.ok (), (Sink.write text s).2) := by
      rw [← (h s (.refl s)).1 text]
    refine ⟨(Sink.write text s).2, ?_, h.leads ((Leads.refl s).write text)⟩
    rw [if_neg hempty, hw]
    rfl

theorem Works.emit (h : Works s) (text : String) : ∃ t, Sink.emit text s = (.ok (), t) ∧ Works t := by
  obtain ⟨t, hp, ht⟩ := h.print text
  have hf : Sink.flush t = (.ok (), (Sink.flush t).2) := by
    rw [← (ht t (.refl t)).2]
  refine ⟨(Sink.flush t).2, ?_, ht.leads (Leads.refl t).flush⟩
  simp only [Sink.emit, hp]
  rw [hf]
  rfl

/-- A text that is not empty is written and then passed on. -/
theorem Works.write_flush (h : Works s) {text : String} (hsome : text ≠ "") :
    ∃ t u, Sink.write text s = (.ok (), t) ∧ Sink.flush t = (.ok (), u) ∧ Sink.emit text s = (.ok (), u) ∧ Works u := by
  obtain ⟨hwrite, -⟩ := h s (.refl s)
  have hleads := (Leads.refl s).write text
  obtain ⟨-, hflush⟩ := h _ hleads
  have hw : Sink.write text s = (.ok (), (Sink.write text s).2) := Prod.ext (hwrite text) rfl
  have hf : Sink.flush (Sink.write text s).2 = (.ok (), (Sink.flush (Sink.write text s).2).2) := Prod.ext hflush rfl
  refine ⟨_, _, hw, hf, ?_, h.leads hleads.flush⟩
  have hprint : Sink.print text s = (.ok (), (Sink.write text s).2) := by
    rw [Sink.print, if_neg (by simpa using hsome), hw]
    rfl
  rw [Sink.emit, hprint]
  dsimp only
  rw [hf]
  rfl

end Sink

namespace BoundedSink

/-- A sink without a limit, whose flush succeeds. -/
structure Open (s : BoundedSink) : Prop where
  limit : s.limit = none
  flushes : s.flushFails = false

variable {s : BoundedSink}

theorem Open.write (h : s.Open) (text : String) :
    s.write text = (.ok (), { s with offered := s.offered ++ text }) := by
  simp [BoundedSink.write, exceeds, h.limit]

theorem Open.flush (h : s.Open) : s.flush = (.ok (), s) := by
  simp [BoundedSink.flush, h.flushes]

theorem Open.works (h : s.Open) : Sink.Works s := by
  intro t hl
  have ht : t.Open := by
    induction hl with
    | refl => exact h
    | @write t text _ ih =>
      have hw : (Sink.write text t).2 = { t with offered := t.offered ++ text } := congrArg Prod.snd (ih.write text)
      rw [hw]
      exact ⟨ih.limit, ih.flushes⟩
    | @flush t _ ih =>
      have hf : (Sink.flush t).2 = t := congrArg Prod.snd ih.flush
      rw [hf]
      exact ih
  exact ⟨fun text => congrArg Prod.fst (ht.write text), congrArg Prod.fst ht.flush⟩

end BoundedSink
end MemsProbe
