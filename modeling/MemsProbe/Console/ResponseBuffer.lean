/-
Room for one reply. A buffer keeps the bytes pushed into it since it was
last cleared, up to a capacity that never changes, and refuses the rest.
-/
import MemsProbe.Failure

namespace MemsProbe

structure ResponseBuffer where
  bytes : Array UInt8
  capacity : Nat
  size_le : bytes.size ≤ capacity

namespace ResponseBuffer

/-- The most bytes that can be asked for in one piece: half of a 48-bit
address space. -/
def addressable : Nat := 0x8000_0000_0000

/-- An empty buffer, if there can be room for it. -/
def allocate (capacity : Nat) : Except Failure ResponseBuffer :=
  if capacity < addressable then .ok ⟨#[], capacity, Nat.zero_le _⟩
  else .error (.exhausted "console response buffer" capacity)

def size (r : ResponseBuffer) : Nat :=
  r.bytes.size

def isEmpty (r : ResponseBuffer) : Bool :=
  r.size == 0

def isFull (r : ResponseBuffer) : Bool :=
  r.capacity ≤ r.size

/-- Adds a byte for which there is room. -/
def add (b : UInt8) (r : ResponseBuffer) (room : r.size < r.capacity) : ResponseBuffer :=
  ⟨r.bytes.push b, r.capacity, by rw [Array.size_push]; exact room⟩

/-- Adds a byte, if there is room for one more. -/
def push (b : UInt8) (r : ResponseBuffer) : Except Failure ResponseBuffer :=
  if room : r.size < r.capacity then .ok (r.add b room)
  else .error (.bufferFull r.capacity)

def clear (r : ResponseBuffer) : ResponseBuffer :=
  ⟨#[], r.capacity, Nat.zero_le _⟩

/-! ## Room -/

variable {r : ResponseBuffer} {b : UInt8}

theorem isFull_iff : r.isFull = true ↔ ¬ r.size < r.capacity := by
  simp [isFull]

theorem push_of_room (b : UInt8) (room : r.size < r.capacity) : r.push b = .ok (r.add b room) :=
  dif_pos room

/-- A buffer that is not full takes one more byte. -/
theorem push_of_not_isFull (b : UInt8) (h : ¬ r.isFull = true) :
    ∃ room, r.push b = .ok (r.add b room) := by
  have room : r.size < r.capacity := Decidable.not_not.1 (mt isFull_iff.2 h)
  exact ⟨room, push_of_room b room⟩

theorem push_ne_error {e : Failure} (h : ¬ r.isFull = true) : r.push b ≠ .error e := by
  obtain ⟨room, hpush⟩ := push_of_not_isFull b h
  rw [hpush]
  nofun

end ResponseBuffer
end MemsProbe
