/-
What a part of the program shows, and that this is all its sink matters for.

A sink is only ever offered text, so a part of the program that runs with a
sink that works comes to the same whatever the sink is: `Shows` says so, with
the answer, the state that is left and the text that was written. The lemmas
below put such parts together: one that writes nothing (`of_const`), one that
writes a text (`of_print`, `of_emit`), and one part after another (`bind`).
-/
import MemsProbe.Proofs.Sinks

namespace MemsProbe

namespace Sink

section

variable {ω : Type} [Sink ω]

/-- A text was written to a sink, in pieces of which none was refused, and
passed on every so often. -/
inductive Takes : ω → String → ω → Prop
  | nothing (s : ω) : Takes s "" s
  | write : Takes s text t → Sink.write piece t = (.ok (), u) → Takes s (text ++ piece) u
  | flush : Takes s text t → Sink.flush t = (.ok (), u) → Takes s text u

variable {s t u : ω} {text more : String}

theorem Takes.trans (h : Takes s text t) (h' : Takes t more u) : Takes s (text ++ more) u := by
  induction h' with
  | nothing => rwa [String.append_empty]
  | write _ hw ih =>
    rw [← String.append_assoc]
    exact ih.write hw
  | flush _ hf ih => exact ih.flush hf

theorem Takes.leads (h : Takes s text t) : Leads s t := by
  induction h with
  | nothing => exact .refl _
  | @write _ t piece u _ hw ih =>
    obtain rfl : (Sink.write piece t).2 = u := by rw [hw]
    exact ih.write piece
  | @flush _ t u _ hf ih =>
    obtain rfl : (Sink.flush t).2 = u := by rw [hf]
    exact ih.flush

theorem takes_print (h : Sink.print text s = (.ok (), t)) : Takes s text t := by
  unfold Sink.print at h
  split at h
  next hempty =>
    obtain rfl : text = "" := by simpa using hempty
    obtain ⟨-, rfl⟩ := Prod.mk.inj h
    exact .nothing s
  next =>
    cases hw : Sink.write text s with | mk answer t' =>
    cases answer with
    | error m => simp [hw, asFailure] at h
    | ok _ =>
      obtain rfl : t' = t := by simpa [hw, asFailure] using h
      have ht := (Takes.nothing s).write hw
      rwa [String.empty_append] at ht

theorem takes_emit (h : Sink.emit text s = (.ok (), t)) : Takes s text t := by
  unfold Sink.emit at h
  split at h
  next => simp at h
  next t₁ hp =>
    cases hf : Sink.flush t₁ with | mk answer t' =>
    cases answer with
    | error m => simp [hf, asFailure] at h
    | ok _ =>
      obtain rfl : t' = t := by simpa [hf, asFailure] using h
      exact (takes_print hp).flush hf

end

/-- With any sink that works, a part of the program answers `a`, leaves `k`
and has written the text. -/
structure Shows {α κ : Type} (run : ∀ {ω : Type} [Sink ω], ω → α × κ × ω) (a : α) (k : κ) (text : String) :
    Prop where
  of_works {ω : Type} [Sink ω] {out : ω} : Works out → ∃ out', run out = (a, k, out') ∧ Takes out text out'

namespace Shows

variable {α κ : Type} {run next : ∀ {ω : Type} [Sink ω], ω → α × κ × ω} {a : α} {k : κ} {more : String}

/-- A part that does not look at its sink. -/
theorem of_const (hrun : ∀ {ω : Type} [Sink ω] (out : ω), run out = (a, k, out)) : Shows run a k "" :=
  ⟨fun {_ _ out} _ => ⟨out, hrun out, .nothing out⟩⟩

/-- A part that writes a text. -/
theorem of_print (text : String)
    (hrun : ∀ {ω : Type} [Sink ω] {out out' : ω}, Sink.print text out = (.ok (), out') → run out = (a, k, out')) :
    Shows run a k text := by
  refine ⟨fun {ω _ out} works => ?_⟩
  obtain ⟨out', hp, -⟩ := works.print text
  exact ⟨out', hrun hp, takes_print hp⟩

theorem print (text : String) (k : κ) :
    Shows (fun out => ((Sink.print text out).1, k, (Sink.print text out).2)) (.ok ()) k text :=
  of_print text fun hp => by rw [hp]

/-- A part that writes a text and passes it on. -/
theorem of_emit (text : String)
    (hrun : ∀ {ω : Type} [Sink ω] {out out' : ω}, Sink.emit text out = (.ok (), out') → run out = (a, k, out')) :
    Shows run a k text := by
  refine ⟨fun {ω _ out} works => ?_⟩
  obtain ⟨out', he, -⟩ := works.emit text
  exact ⟨out', hrun he, takes_emit he⟩

/-- One part after another. -/
theorem bind {β κ' : Type} {b : β} {j : κ'} {text : String} {first : ∀ {ω : Type} [Sink ω], ω → β × κ' × ω}
    (hfirst : Shows first b j text) (hnext : Shows next a k more)
    (hrun : ∀ {ω : Type} [Sink ω] {out out' : ω}, first out = (b, j, out') → run out = next out') :
    Shows run a k (text ++ more) := by
  refine ⟨fun {ω _ out} works => ?_⟩
  obtain ⟨out₁, hf, ht⟩ := hfirst.of_works works
  obtain ⟨out', hn, ht'⟩ := hnext.of_works (works.leads ht.leads)
  exact ⟨out', (hrun hf).trans hn, ht.trans ht'⟩

/-- A part that answers for another one. -/
theorem map {β κ' : Type} {b : β} {j : κ'} {first : ∀ {ω : Type} [Sink ω], ω → β × κ' × ω}
    (hfirst : Shows first b j more)
    (hrun : ∀ {ω : Type} [Sink ω] {out out' : ω}, first out = (b, j, out') → run out = (a, k, out')) :
    Shows run a k more := by
  refine ⟨fun {ω _ out} works => ?_⟩
  obtain ⟨out', hf, ht⟩ := hfirst.of_works works
  exact ⟨out', hrun hf, ht⟩

end Shows
end Sink

namespace BoundedSink

/-- An open sink has been offered what it took. -/
theorem Open.takes {s t : BoundedSink} {text : String} (h : s.Open) (ht : Sink.Takes s text t) :
    t = { s with offered := s.offered ++ text } := by
  induction ht with
  | nothing => rw [String.append_empty]
  | @write text t piece u _ hw ih =>
    subst ih
    have hopen : ({ s with offered := s.offered ++ text } : BoundedSink).Open := ⟨h.limit, h.flushes⟩
    rw [← String.append_assoc]
    exact (Prod.mk.inj ((hopen.write piece).symm.trans hw)).2.symm
  | @flush text t u _ hf ih =>
    subst ih
    have hopen : ({ s with offered := s.offered ++ text } : BoundedSink).Open := ⟨h.limit, h.flushes⟩
    exact (Prod.mk.inj (hopen.flush.symm.trans hf)).2.symm

end BoundedSink
end MemsProbe
