/-
What a sink of limited room does to the part of a program that writes to it.

Such a part is run twice, with a sink that takes everything and with one
that refuses whatever goes beyond its limit. `Truncates` says that the
second run is the first one or a beginning of it: as long as all fits, the
two do the same, and at the first refusal the second ends with it, having
offered and called nothing that the first did not. The lemmas below put such
parts together: one that writes nothing (`of_const`), a text
(`print`, `emit`), and one part after another (`bind`), where it is enough
that the later part passes a refusal on.
-/
import MemsProbe.Link
import MemsProbe.Sink

namespace MemsProbe

namespace BoundedSink

/-- The failure to write to a sink that has no room left. -/
def refusal : Failure :=
  .io "output closed"

/-- A sink without a limit that has been offered a text. -/
def wide (text : String) : BoundedSink :=
  { offered := text }

/-- A sink with room for so many bytes that has been offered a text. -/
def narrow (limit : Nat) (text : String) : BoundedSink :=
  { limit := some limit, offered := text }

theorem print_wide (text before : String) :
    Sink.print text (wide before) = (.ok (), wide (before ++ text)) := by
  unfold Sink.print
  by_cases hempty : text.isEmpty = true
  · obtain rfl : text = "" := by simpa using hempty
    simp
  · rw [if_neg hempty]
    rfl

theorem write_narrow (limit : Nat) (text before : String) :
    Sink.write text (narrow limit before) =
      if limit < (before ++ text).utf8ByteSize then (.error "output closed", narrow limit (before ++ text))
      else (.ok (), narrow limit (before ++ text)) := by
  show BoundedSink.write text (narrow limit before) = _
  simp [BoundedSink.write, exceeds, narrow]

theorem print_fits {limit : Nat} {text before : String} (h : (before ++ text).utf8ByteSize ≤ limit) :
    Sink.print text (narrow limit before) = (.ok (), narrow limit (before ++ text)) := by
  unfold Sink.print
  by_cases hempty : text.isEmpty = true
  · obtain rfl : text = "" := by simpa using hempty
    simp
  · rw [if_neg hempty, write_narrow, if_neg (Nat.not_lt.2 h)]
    rfl

theorem print_refused {limit : Nat} {text before : String} (hfits : before.utf8ByteSize ≤ limit)
    (h : limit < (before ++ text).utf8ByteSize) :
    Sink.print text (narrow limit before) = (.error refusal, narrow limit (before ++ text)) := by
  unfold Sink.print
  by_cases hempty : text.isEmpty = true
  · obtain rfl : text = "" := by simpa using hempty
    rw [String.append_empty] at h
    omega
  · rw [if_neg hempty, write_narrow, if_pos h]
    rfl

theorem print_flushFails (text : String) (s : BoundedSink) :
    (Sink.print text s).2.flushFails = s.flushFails := by
  have hwrite : (Sink.write text s).2.flushFails = s.flushFails := by
    show (BoundedSink.write text s).2.flushFails = s.flushFails
    simp only [BoundedSink.write]
    split <;> rfl
  unfold Sink.print
  split
  · rfl
  · rw [← hwrite]
    generalize Sink.write text s = written
    obtain ⟨_ | _, s'⟩ := written <;> rfl

/-- Passing a text on makes no difference where that succeeds. -/
theorem emit_eq_print (text : String) {s : BoundedSink} (h : s.flushFails = false) :
    Sink.emit text s = Sink.print text s := by
  have hkeeps := print_flushFails text s
  unfold Sink.emit
  generalize Sink.print text s = printed at hkeeps
  obtain ⟨e | _, s'⟩ := printed
  · rfl
  · have hflush : BoundedSink.flush s' = (.ok (), s') := by
      rw [BoundedSink.flush, if_neg]
      rw [show s'.flushFails = false from hkeeps.trans h]
      exact Bool.false_ne_true
    show Sink.asFailure (BoundedSink.flush s') = _
    rw [hflush]
    rfl

/-! ### What was kept -/

theorem extract_of_size_le {bytes : ByteArray} {n : Nat} (h : bytes.size ≤ n) : bytes.extract 0 n = bytes := by
  apply ByteArray.ext
  rw [ByteArray.data_extract, Array.extract_eq_self_of_le]
  exact h

theorem extract_first {text : String} (more : String) {n : Nat} (h : n ≤ text.utf8ByteSize) :
    (text ++ more).toUTF8.extract 0 n = text.toUTF8.extract 0 n := by
  have hnone : n - text.toUTF8.size = 0 := Nat.sub_eq_zero_of_le h
  have happend : (text ++ more).toUTF8 = text.toUTF8 ++ more.toUTF8 := String.toByteArray_append
  rw [happend, ByteArray.extract_append, hnone, Nat.zero_sub, ByteArray.extract_same, ByteArray.append_empty]

theorem kept_wide (text : String) : (wide text).kept = text.toUTF8 :=
  extract_of_size_le (Nat.le_refl text.utf8ByteSize)

theorem kept_narrow (limit : Nat) (text : String) : (narrow limit text).kept = text.toUTF8.extract 0 limit :=
  rfl

end BoundedSink

open BoundedSink

/-- How a part of the program comes out with a limit on its sink, where
without one it answers `a` and leaves `k`, having written a text: it does the
same, or it is refused before it has called anything else. -/
inductive Shortened {α κ : Type} (refused : α → Prop) (calls : κ → List Call) (limit : Nat) (before text : String)
    (a : α) (k : κ) : α × κ × BoundedSink → Prop
  | whole : (before ++ text).utf8ByteSize ≤ limit →
      Shortened refused calls limit before text a k (a, k, narrow limit (before ++ text))
  | cut {b : α} {j : κ} {kept rest : String} : text = kept ++ rest → limit < (before ++ kept).utf8ByteSize →
      refused b → calls j <+: calls k →
      Shortened refused calls limit before text a k (b, j, narrow limit (before ++ kept))

/-- A limit on the sink only shortens what a part of the program does. The
calls made before it are kept. -/
def Truncates {α κ : Type} (refused : α → Prop) (calls : κ → List Call) (start : List Call)
    (run : BoundedSink → α × κ × BoundedSink) : Prop :=
  ∀ before, ∃ a k text, run (wide before) = (a, k, wide (before ++ text)) ∧ start <+: calls k ∧
    ∀ limit, before.utf8ByteSize ≤ limit →
      Shortened refused calls limit before text a k (run (narrow limit before))

namespace Truncates

variable {α β κ κ' : Type} {refused : α → Prop} {calls : κ → List Call} {start start' : List Call}
  {run : BoundedSink → α × κ × BoundedSink}

/-- A part that does not look at its sink. -/
theorem of_const (a : α) (k : κ) (hstart : start <+: calls k) (hrun : ∀ out, run out = (a, k, out)) :
    Truncates refused calls start run := by
  intro before
  refine ⟨a, k, "", by rw [hrun, String.append_empty], hstart, fun limit hfits => ?_⟩
  have hwhole : (before ++ "").utf8ByteSize ≤ limit := by rwa [String.append_empty]
  have hsame : run (narrow limit before) = (a, k, narrow limit (before ++ "")) := by
    rw [hrun, String.append_empty]
  rw [hsame]
  exact .whole hwhole

/-- Calls made before may be counted in. -/
theorem weaken (h : Truncates refused calls start' run) (hstart : start <+: start') :
    Truncates refused calls start run := by
  intro before
  obtain ⟨a, k, text, hrun, hcalls, hlimit⟩ := h before
  exact ⟨a, k, text, hrun, hstart.trans hcalls, hlimit⟩

/-- Writing a text. -/
theorem print (text : String) (k : κ) :
    Truncates (· = .error refusal) calls (calls k) fun out =>
      ((Sink.print text out).1, k, (Sink.print text out).2) := by
  intro before
  refine ⟨.ok (), k, text, by simp only [print_wide], List.prefix_rfl, fun limit hfits => ?_⟩
  by_cases hwhole : (before ++ text).utf8ByteSize ≤ limit
  · simp only [print_fits hwhole]
    exact .whole hwhole
  · have hfull : limit < (before ++ text).utf8ByteSize := by omega
    simp only [print_refused hfits hfull]
    exact .cut (String.append_empty).symm hfull rfl List.prefix_rfl

/-- One part after another, which passes on a refusal of the first. -/
theorem bind {refused' : β → Prop} {calls' : κ' → List Call} {first : BoundedSink → β × κ' × BoundedSink}
    (hfirst : Truncates refused' calls' start first) (next : β → κ' → BoundedSink → α × κ × BoundedSink)
    (hnext : ∀ b j, Truncates refused calls (calls' j) (next b j))
    (hpass : ∀ b j, refused' b → ∃ a k, refused a ∧ calls k = calls' j ∧ ∀ out, next b j out = (a, k, out))
    (hrun : ∀ {out b j out'}, first out = (b, j, out') → run out = next b j out') :
    Truncates refused calls start run := by
  intro before
  obtain ⟨b, j, text, hb, hstart, hlimit⟩ := hfirst before
  obtain ⟨a, k, more, ha, hcalls, hlimit'⟩ := hnext b j (before ++ text)
  refine ⟨a, k, text ++ more, ?_, hstart.trans hcalls, fun limit hfits => ?_⟩
  · rw [hrun hb, ha, String.append_assoc]
  · have hshort := hlimit limit hfits
    cases hf : first (narrow limit before) with | mk b' rest =>
    obtain ⟨j', out⟩ := rest
    rw [hf] at hshort
    rw [hrun hf]
    cases hshort with
    | whole hwhole =>
      have hshort' := hlimit' limit hwhole
      generalize next b j (narrow limit (before ++ text)) = out' at hshort'
      cases hshort' with
      | whole hwhole' =>
        rw [String.append_assoc] at hwhole' ⊢
        exact .whole hwhole'
      | @cut _ _ kept rest hmore hfull hrefused hprefix =>
        rw [String.append_assoc] at hfull ⊢
        exact .cut (by rw [hmore, String.append_assoc]) hfull hrefused hprefix
    | @cut _ _ kept rest htext hfull hrefused hprefix =>
      obtain ⟨a', k', hrefused', hsame, hnext'⟩ := hpass b' j' hrefused
      rw [hnext']
      refine .cut (show text ++ more = kept ++ (rest ++ more) by rw [htext, String.append_assoc]) hfull hrefused' ?_
      rw [hsame]
      exact hprefix.trans hcalls

/-- A text that is passed on at once. -/
theorem emit (text : String) (k : κ) :
    Truncates (· = .error refusal) calls (calls k) fun out =>
      ((Sink.emit text out).1, k, (Sink.emit text out).2) := by
  intro before
  have hwide : Sink.emit text (wide before) = Sink.print text (wide before) := emit_eq_print text rfl
  have hnarrow : ∀ limit, Sink.emit text (narrow limit before) = Sink.print text (narrow limit before) :=
    fun limit => emit_eq_print text rfl
  simp only [hwide, hnarrow]
  exact print text k before

/-- What comes after a text, unless that was refused. -/
theorem after {k : κ} (bad : Failure → α) {first : BoundedSink → Except Failure Unit × Unit × BoundedSink}
    {next : BoundedSink → α × κ × BoundedSink}
    (hfirst : Truncates (· = .error refusal) (fun _ => calls k) (calls k) first) (hbad : refused (bad refusal))
    (hnext : Truncates refused calls (calls k) next)
    (herror : ∀ {out e out'}, first out = (.error e, (), out') → run out = (bad e, k, out'))
    (hok : ∀ {out out'}, first out = (.ok (), (), out') → run out = next out') :
    Truncates refused calls (calls k) run := by
  refine hfirst.bind (fun answer _ out =>
    match answer with
    | .error e => (bad e, k, out)
    | .ok () => next out) (fun answer _ => ?_) (fun answer _ hrefused => ?_) (fun {out answer _ out'} hout => ?_)
  · cases answer with
    | error e => exact of_const (bad e) k List.prefix_rfl fun _ => rfl
    | ok _ => exact hnext
  · obtain rfl := hrefused
    exact ⟨bad refusal, k, hbad, rfl, fun _ => rfl⟩
  · cases answer with
    | error e => exact herror hout
    | ok _ => exact hok hout

theorem after_print (text : String) (k : κ) (bad : Failure → α) {next : BoundedSink → α × κ × BoundedSink}
    (hbad : refused (bad refusal)) (hnext : Truncates refused calls (calls k) next)
    (herror : ∀ {out e out'}, Sink.print text out = (.error e, out') → run out = (bad e, k, out'))
    (hok : ∀ {out out'}, Sink.print text out = (.ok (), out') → run out = next out') :
    Truncates refused calls (calls k) run :=
  after bad (print text ()) hbad hnext (fun hout => herror (Prod.ext (congrArg (·.1) hout) (congrArg (·.2.2) hout)))
    fun hout => hok (Prod.ext (congrArg (·.1) hout) (congrArg (·.2.2) hout))

theorem after_emit (text : String) (k : κ) (bad : Failure → α) {next : BoundedSink → α × κ × BoundedSink}
    (hbad : refused (bad refusal)) (hnext : Truncates refused calls (calls k) next)
    (herror : ∀ {out e out'}, Sink.emit text out = (.error e, out') → run out = (bad e, k, out'))
    (hok : ∀ {out out'}, Sink.emit text out = (.ok (), out') → run out = next out') :
    Truncates refused calls (calls k) run :=
  after bad (emit text ()) hbad hnext (fun hout => herror (Prod.ext (congrArg (·.1) hout) (congrArg (·.2.2) hout)))
    fun hout => hok (Prod.ext (congrArg (·.1) hout) (congrArg (·.2.2) hout))

end Truncates

end MemsProbe
