/-
What a response buffer holds.

A buffer is pushed into and cleared in whatever order (`Use`), and its content
is told by that history alone: it is the bytes pushed since the last clearing,
as far as there was room (`afterAll_keeps`). A byte that was refused counts as
pushed like any other, which changes nothing, since a buffer that is full
stays so until it is cleared.
-/
import Mathlib.Data.List.DropRight
import MemsProbe.Console.ResponseBuffer

namespace MemsProbe.ResponseBuffer

/-! ## Histories -/

/-- A use that is made of a buffer. -/
inductive Use where
  | push (b : UInt8)
  | clear
  deriving DecidableEq, Repr

/-- The byte that is pushed, if one is. -/
def Use.pushed? : Use → Option UInt8
  | push b => some b
  | clear => none

/-- What a buffer answers to a use. -/
def answer (r : ResponseBuffer) : Use → Except Failure Unit
  | .push b => (r.push b).map fun _ => ()
  | .clear => .ok ()

/-- A buffer after a use. With a push that is refused comes no other buffer. -/
def after (r : ResponseBuffer) : Use → ResponseBuffer
  | .push b => (r.push b).toOption.getD r
  | .clear => r.clear

/-- A buffer after several uses, one after the other. -/
def afterAll (r : ResponseBuffer) (uses : List Use) : ResponseBuffer :=
  uses.foldl after r

/-- The bytes pushed since the last clearing, or all if there was none. -/
def pushedSince (uses : List Use) : List UInt8 :=
  (uses.rtakeWhile (· ≠ .clear)).filterMap Use.pushed?

@[simp]
theorem afterAll_concat (r : ResponseBuffer) (uses : List Use) (u : Use) :
    r.afterAll (uses ++ [u]) = (r.afterAll uses).after u :=
  List.foldl_concat after r u uses

@[simp]
theorem pushedSince_push (uses : List Use) (b : UInt8) : pushedSince (uses ++ [.push b]) = pushedSince uses ++ [b] := by
  simp [pushedSince, Use.pushed?]

@[simp]
theorem pushedSince_clear (uses : List Use) : pushedSince (uses ++ [.clear]) = [] := by
  simp [pushedSince]

/-! ## Single uses -/

section

variable {capacity : Nat} {bytes : List UInt8} {r : ResponseBuffer}

theorem after_push_of_room (b : UInt8) (room : r.size < r.capacity) : r.after (.push b) = r.add b room := by
  simp [after, push, room, Except.toOption]

theorem push_of_full (b : UInt8) (full : r.capacity ≤ r.size) : r.push b = .error (.bufferFull r.capacity) := by
  rw [push, dif_neg (Nat.not_lt.2 full)]

theorem after_push_of_full (b : UInt8) (full : r.capacity ≤ r.size) : r.after (.push b) = r := by
  simp [after, push_of_full b full, Except.toOption]

/-- What was done with a buffer of that capacity has left as many of the
bytes in it as there is room for, the first ones. -/
structure Keeps (capacity : Nat) (bytes : List UInt8) (r : ResponseBuffer) : Prop where
  capacity_eq : r.capacity = capacity
  toList_eq : r.bytes.toList = bytes.take capacity

theorem Keeps.size_eq (h : Keeps capacity bytes r) : r.size = min capacity bytes.length := by
  rw [size, ← Array.length_toList, h.toList_eq, List.length_take]

theorem Keeps.room_iff (h : Keeps capacity bytes r) : r.size < r.capacity ↔ bytes.length < capacity := by
  rw [h.size_eq, h.capacity_eq]
  omega

theorem allocate_keeps (h : allocate capacity = .ok r) : Keeps capacity [] r := by
  unfold allocate at h
  split at h
  · obtain rfl := Except.ok.inj h
    exact ⟨rfl, List.take_nil.symm⟩
  · cases h

theorem Keeps.push (h : Keeps capacity bytes r) (b : UInt8) : Keeps capacity (bytes ++ [b]) (r.after (.push b)) := by
  by_cases room : r.size < r.capacity
  · have hlt := h.room_iff.1 room
    rw [after_push_of_room b room]
    refine ⟨h.capacity_eq, ?_⟩
    -- All bytes so far fit, and one more does.
    have hall : (bytes ++ [b]).take capacity = bytes ++ [b] := List.take_of_length_le (by simp; omega)
    have hbefore : bytes.take capacity = bytes := List.take_of_length_le (by omega)
    simp [add, h.toList_eq, hall, hbefore]
  · have hle : capacity ≤ bytes.length := Nat.not_lt.1 fun hlt => room (h.room_iff.2 hlt)
    rw [after_push_of_full b (Nat.not_lt.1 room)]
    exact ⟨h.capacity_eq, by rw [h.toList_eq, List.take_append_of_le_length hle]⟩

theorem Keeps.clear (h : Keeps capacity bytes r) : Keeps capacity [] (r.after .clear) :=
  ⟨h.capacity_eq, List.take_nil.symm⟩

theorem Keeps.afterAll (h : Keeps capacity [] r) (uses : List Use) :
    Keeps capacity (pushedSince uses) (r.afterAll uses) := by
  induction uses using List.reverseRecOn with
  | nil => exact h
  | append_singleton uses u ih =>
    rw [afterAll_concat]
    cases u with
    | push b =>
      rw [pushedSince_push]
      exact ih.push b
    | clear =>
      rw [pushedSince_clear]
      exact ih.clear

/-- **A buffer holds the first bytes pushed since it was last cleared.** It
holds as many as there is room for, in their order, whatever was done with it
before; never more than its capacity, which stays what it was. The next byte
is taken if and only if fewer bytes were pushed since the last clearing than
the capacity. Otherwise the refusal names the capacity, and the buffer is
as it was. -/
theorem afterAll_keeps (h : allocate capacity = .ok r) (uses : List Use) :
    (r.afterAll uses).bytes.toList = (pushedSince uses).take (min capacity (pushedSince uses).length) ∧
      (r.afterAll uses).size ≤ capacity ∧
      (r.afterAll uses).capacity = capacity ∧
      ∀ b, ((r.afterAll uses).answer (.push b) = .ok () ↔ (pushedSince uses).length < capacity) ∧
        (¬ (pushedSince uses).length < capacity →
          (r.afterAll uses).answer (.push b) = .error (.bufferFull capacity) ∧
            r.afterAll (uses ++ [.push b]) = r.afterAll uses) := by
  have hkeeps := (allocate_keeps h).afterAll uses
  refine ⟨?_, ?_, hkeeps.capacity_eq, fun b => ⟨?_, fun hnot => ?_⟩⟩
  · rw [hkeeps.toList_eq, List.take_eq_take_min]
  · rw [hkeeps.size_eq]
    exact Nat.min_le_left _ _
  · rw [← hkeeps.room_iff]
    constructor
    · intro hok
      by_contra hnot
      rw [answer, push_of_full b (Nat.not_lt.1 hnot)] at hok
      cases hok
    · intro room
      simp [answer, push, room, Except.map]
  · have full := Nat.not_lt.1 fun room => hnot (hkeeps.room_iff.1 room)
    rw [afterAll_concat, after_push_of_full b full, answer, push_of_full b full, hkeeps.capacity_eq]
    exact ⟨rfl, rfl⟩

end

/-- Room for two bytes, of which the third is refused until the buffer is
cleared; and room for none, where the first is. -/
theorem snug_keeps :
    (∃ r, allocate 2 = .ok r ∧
      (r.afterAll [.push 1, .push 2, .push 3]).bytes.toList = [1, 2] ∧
      (r.afterAll [.push 1, .push 2, .push 3]).answer (.push 4) = .error (.bufferFull 2) ∧
      (r.afterAll [.push 1, .push 2, .push 3, .clear, .push 4]).bytes.toList = [4]) ∧
      ∃ r, allocate 0 = .ok r ∧ ∀ b, (r.afterAll [.clear]).answer (.push b) = .error (.bufferFull 0) := by
  have htwo : allocate 2 = .ok ⟨#[], 2, Nat.zero_le _⟩ := rfl
  have hnone : allocate 0 = .ok ⟨#[], 0, Nat.zero_le _⟩ := rfl
  obtain ⟨hfull, -, -, hnext⟩ := afterAll_keeps htwo [.push 1, .push 2, .push 3]
  obtain ⟨hagain, -⟩ := afterAll_keeps htwo [.push 1, .push 2, .push 3, .clear, .push 4]
  obtain ⟨-, -, -, hroomless⟩ := afterAll_keeps hnone [.clear]
  exact ⟨⟨_, htwo, hfull, ((hnext 4).2 (by decide)).1, hagain⟩, _, hnone, fun b => ((hroomless b).2 (by decide)).1⟩

end MemsProbe.ResponseBuffer
