/-
What the record of a link tells.

A link keeps every call made over it, so what was said over the line is
data. The view taken here cuts the record at its writes: an attempt is a
write together with the outcomes of the reads that follow it, up to the
next write. `Link.Makes` says which attempts lead from one link to another,
and attempts made one after the other are simply put one after the other
(`Makes.trans`). That is what lets a statement about a whole run be put
together from statements about its exchanges.
-/
import MemsProbe.Link

namespace MemsProbe

/-- What a read came to. -/
abbrev Heard := Except Failure (List UInt8)

/-- The bytes that arrived before the first silence or fault. -/
def delivered : List Heard → List UInt8
  | .ok (b :: more) :: rest => b :: more ++ delivered rest
  | _ => []

/-- Reads that all brought bytes. -/
def Unbroken (hs : List Heard) : Prop :=
  ∀ h ∈ hs, ∃ b more, h = .ok (b :: more)

theorem delivered_append {hs : List Heard} (hu : Unbroken hs) (hs' : List Heard) :
    delivered (hs ++ hs') = delivered hs ++ delivered hs' := by
  induction hs with
  | nil => rfl
  | cons h hs ih =>
    obtain ⟨b, more, rfl⟩ := hu h (by simp)
    simp [delivered, ih fun h hm => hu h (by simp [hm])]

/-- A write, and what the reads after it came to, up to the next write. -/
structure Attempt where
  offered : List UInt8
  taken : Except Failure Nat
  heard : List Heard

/-- What is heard before anything is written. -/
def heardFirst : List Call → List Heard
  | [] => []
  | .write _ _ :: _ => []
  | .read _ h :: calls => h :: heardFirst calls
  | .timeout _ _ :: calls | .pause _ :: calls => heardFirst calls

/-- The writes among calls, each with what was heard after it. -/
def attempts : List Call → List Attempt
  | [] => []
  | .write offered taken :: calls => ⟨offered, taken, heardFirst calls⟩ :: attempts calls
  | .read _ _ :: calls | .timeout _ _ :: calls | .pause _ :: calls => attempts calls

theorem heardFirst_append {calls : List Call} (h : attempts calls = []) (calls' : List Call) :
    heardFirst (calls ++ calls') = heardFirst calls ++ heardFirst calls' := by
  induction calls with
  | nil => rfl
  | cons call calls ih => cases call <;> simp_all [attempts, heardFirst]

theorem heardFirst_append_of_silent {calls' : List Call} (h : heardFirst calls' = []) (calls : List Call) :
    heardFirst (calls ++ calls') = heardFirst calls := by
  induction calls with
  | nil => simpa [heardFirst] using h
  | cons call calls ih => cases call <;> simp [heardFirst, ih]

/-- What is heard first belongs to no attempt made before it only if nothing
is; then attempts are put together as their calls are. -/
theorem attempts_append {calls' : List Call} (h : heardFirst calls' = []) (calls : List Call) :
    attempts (calls ++ calls') = attempts calls ++ attempts calls' := by
  induction calls with
  | nil => rfl
  | cons call calls ih => cases call <;> simp [attempts, ih, heardFirst_append_of_silent h]

theorem attempts_append_of_unwritten {calls : List Call} (h : attempts calls = []) (calls' : List Call) :
    attempts (calls ++ calls') = attempts calls' := by
  induction calls with
  | nil => rfl
  | cons call calls ih => cases call <;> simp_all [attempts]

namespace Link

variable {σ : Type}

/-- The calls between two links are reads, and they came to this. -/
def Hears (l : Link σ) (hs : List Heard) (l' : Link σ) : Prop :=
  ∃ calls, l'.calls.toList = l.calls.toList ++ calls ∧ attempts calls = [] ∧ heardFirst calls = hs

/-- The calls between two links make these attempts, and nothing is read
before the first of them. -/
def Makes (l : Link σ) (made : List Attempt) (l' : Link σ) : Prop :=
  ∃ calls, l'.calls.toList = l.calls.toList ++ calls ∧ heardFirst calls = [] ∧ attempts calls = made

variable {l l' l'' : Link σ}

theorem Hears.refl (l : Link σ) : l.Hears [] l :=
  ⟨[], by simp, rfl, rfl⟩

theorem Hears.trans {hs hs' : List Heard} (h : l.Hears hs l') (h' : l'.Hears hs' l'') :
    l.Hears (hs ++ hs') l'' := by
  obtain ⟨calls, hc, hw, rfl⟩ := h
  obtain ⟨calls', hc', hw', rfl⟩ := h'
  refine ⟨calls ++ calls', by rw [hc', hc, List.append_assoc], ?_, heardFirst_append hw calls'⟩
  rw [attempts_append_of_unwritten hw, hw']

theorem Hears.of_calls_eq {hs : List Heard} (h : l.Hears hs l') (hc : l''.calls = l.calls) :
    l''.Hears hs l' := by
  obtain ⟨calls, hl, hs⟩ := h
  exact ⟨calls, by rw [hc, hl], hs⟩

theorem Makes.refl (l : Link σ) : l.Makes [] l :=
  ⟨[], by simp, rfl, rfl⟩

theorem Makes.trans {made made' : List Attempt} (h : l.Makes made l') (h' : l'.Makes made' l'') :
    l.Makes (made ++ made') l'' := by
  obtain ⟨calls, hc, hs, rfl⟩ := h
  obtain ⟨calls', hc', hs', rfl⟩ := h'
  refine ⟨calls ++ calls', by rw [hc', hc, List.append_assoc], ?_, attempts_append hs' calls⟩
  rw [heardFirst_append_of_silent hs', hs]

/-- Links with the same calls are alike for what was made. -/
theorem Makes.of_calls_eq {made : List Attempt} (h : l.Makes made l') (hc : l''.calls = l'.calls) :
    l.Makes made l'' := by
  obtain ⟨calls, hl, hs⟩ := h
  exact ⟨calls, by rw [hc, hl], hs⟩

/-- On a new link the record holds just what was made. -/
theorem Makes.attempts {made : List Attempt} (h : l.Makes made l') (hl : l.calls = #[]) :
    attempts l'.calls.toList = made := by
  obtain ⟨calls, hc, -, rfl⟩ := h
  rw [hc, hl, List.nil_append]

theorem Makes.note {made : List Attempt} (h : l.Makes made l') (n : Note) : l.Makes made (l'.note n) :=
  h.of_calls_eq rfl

theorem Makes.pause {made : List Attempt} (h : l.Makes made l') (milliseconds : Nat) :
    l.Makes made (l'.pause milliseconds) := by
  have hp : l'.Makes [] (l'.pause milliseconds) :=
    ⟨[.pause milliseconds], by simp [Link.pause], rfl, rfl⟩
  simpa using h.trans hp

variable [Line σ]

theorem setTimeout_makes {milliseconds : Nat} {answer} (h : l.setTimeout milliseconds = (answer, l')) :
    l.Makes [] l' := by
  obtain rfl : (l.setTimeout milliseconds).2 = l' := by rw [h]
  exact ⟨[.timeout milliseconds (l.setTimeout milliseconds).1], by simp [setTimeout], rfl, rfl⟩

theorem idle_makes (l : Link σ) : l.Makes [] l.idle :=
  (Makes.refl l).of_calls_eq rfl

theorem line_read {room : Nat} {answer} (h : l.read room = (answer, l')) :
    Line.read room l.line = (answer, l'.line) := by
  obtain rfl : (l.read room).1 = answer := by rw [h]
  obtain rfl : (l.read room).2 = l' := by rw [h]
  rfl

/-- A link reads what its line gives. -/
theorem read_of_line {s t : σ} {room : Nat} {answer} (hl : l.line = s) (h : Line.read room s = (answer, t)) :
    ∃ l', l.read room = (answer, l') ∧ l'.line = t := by
  subst hl
  exact ⟨(l.read room).2, by simp [Link.read, h], by simp [Link.read, h]⟩

theorem line_write {offered : List UInt8} {taken} (h : l.write offered = (taken, l')) :
    Line.write offered l.line = (taken, l'.line) := by
  obtain rfl : (l.write offered).1 = taken := by rw [h]
  obtain rfl : (l.write offered).2 = l' := by rw [h]
  rfl

theorem write_calls {offered : List UInt8} {taken} (h : l.write offered = (taken, l')) :
    l'.calls.toList = l.calls.toList ++ [.write offered taken] := by
  obtain rfl : (l.write offered).1 = taken := by rw [h]
  obtain rfl : (l.write offered).2 = l' := by rw [h]
  simp [write]

theorem read_calls {room : Nat} {answer} (h : l.read room = (answer, l')) :
    l'.calls.toList = l.calls.toList ++ [.read room (answer.map Subtype.val)] := by
  obtain rfl : (l.read room).1 = answer := by rw [h]
  obtain rfl : (l.read room).2 = l' := by rw [h]
  simp [read]

theorem read_hears {room : Nat} {answer} (h : l.read room = (answer, l')) :
    l.Hears [answer.map Subtype.val] l' := by
  obtain rfl : (l.read room).1 = answer := by rw [h]
  obtain rfl : (l.read room).2 = l' := by rw [h]
  exact ⟨[.read room ((l.read room).1.map Subtype.val)], by simp [read], rfl, rfl⟩

/-- A write and the reads after it are an attempt. -/
theorem write_makes {offered : List UInt8} {taken} {hs : List Heard}
    (h : l.write offered = (taken, l')) (hr : l'.Hears hs l'') : l.Makes [⟨offered, taken, hs⟩] l'' := by
  obtain ⟨calls, hc, hu, rfl⟩ := hr
  refine ⟨.write offered taken :: calls, ?_, rfl, by simp [attempts, hu]⟩
  rw [hc, write_calls h, List.append_assoc, List.singleton_append]

/-- A byte counted as taken is the whole of a write of one byte. -/
theorem writeAll_one {command : UInt8} {answer} (h : l.writeAll [command] = (answer, l')) :
    ∃ taken, l.write [command] = (taken, l') ∧ (answer = .ok () ↔ taken = .ok 1) := by
  unfold writeAll at h
  split at h
  next e l₁ hw =>
    obtain ⟨rfl, rfl⟩ := Prod.mk.inj h
    exact ⟨.error e, hw, by simp⟩
  next taken l₁ hw =>
    split at h
    next heq =>
      obtain ⟨rfl, rfl⟩ := Prod.mk.inj h
      exact ⟨.ok taken, hw, by simpa using heq⟩
    next hne =>
      obtain ⟨rfl, rfl⟩ := Prod.mk.inj h
      exact ⟨.ok taken, hw, by simpa using hne⟩

end Link
end MemsProbe
