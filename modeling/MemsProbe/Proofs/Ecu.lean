/-
An ECU that keeps its promise.

It takes and answers every command, with bytes that may differ from reply
to reply, and what it sent arrives as slowly as its pace says: each of the
next reads brings a given number of bytes at most, none included. It shows
that the promise of `AnsweringLine` can be kept, also where the line is
silent within a reply, and `paced_prompt` that the stronger one can be.
-/
import MemsProbe.Proofs.Answering

namespace MemsProbe

structure Ecu where
  sent : List Wire.Reply := []
  unread : List UInt8 := []
  /-- The bytes of each reply, by its number and theirs. -/
  content : Nat → Nat → UInt8 := fun _ _ => 0
  /-- The most that each of the next reads brings; later ones bring all that
  there is room for. -/
  pace : List Nat := []

namespace Ecu

/-- Sends the next reply. -/
def send (r : Wire.Reply) (s : Ecu) : Ecu :=
  { s with sent := s.sent ++ [r], unread := s.unread ++ r.wire }

/-- The next reply, to a command with a reply of the given length. -/
def nextReply (command : UInt8) (n : Nat) (known : Wire.replyLength? command = some n) (s : Ecu) : Wire.Reply :=
  ⟨command, (List.range n).map (s.content s.sent.length), by simpa using known⟩

def write (offered : List UInt8) (s : Ecu) : Except Failure Nat × Ecu :=
  match offered with
  | [command] =>
    match known : Wire.replyLength? command with
    | some n => (.ok 1, s.send (s.nextReply command n known))
    | none => (.ok 1, s)
  | _ => (.ok offered.length, s)

/-- How many bytes the next read may bring. -/
def most (s : Ecu) (room : Nat) : Nat :=
  min room (s.pace.headD room)

def read (room : Nat) (s : Ecu) : Except Failure { got : List UInt8 // got.length ≤ room } × Ecu :=
  (.ok ⟨s.unread.take (s.most room), Nat.le_trans (List.length_take_le ..) (Nat.min_le_left ..)⟩,
    { s with unread := s.unread.drop (s.most room), pace := s.pace.tail })

instance : Line Ecu where
  write := write
  read := read
  setTimeout _ s := (.ok (), s)
  cancelled _ := false

theorem write_known {s : Ecu} {command : UInt8} {n : Nat} (known : Wire.replyLength? command = some n) :
    s.write [command] = (.ok 1, s.send (s.nextReply command n known)) := by
  simp only [write]
  split
  next m hm =>
    obtain rfl := Option.some.inj (hm.symm.trans known)
    rfl
  next hm =>
    rw [hm] at known
    cases known

instance : AnsweringLine Ecu where
  sent := sent
  unread := unread
  write_sends known h := by
    have h := (write_known known).symm.trans h
    obtain ⟨rfl, rfl⟩ := Prod.mk.inj h
    exact .inl ⟨_, rfl, rfl, rfl⟩
  read_takes h := by
    obtain ⟨hg, rfl⟩ := Prod.mk.inj h
    obtain rfl := Except.ok.inj hg
    exact ⟨rfl, (List.take_append_drop ..).symm⟩
  read_fails h := nomatch (Prod.mk.inj h).1

/-- An ECU whose pace never falls to nothing is prompt. -/
theorem paced_prompt {s : Ecu} (h : ∀ k ∈ s.pace, 0 < k) : AnsweringLine.Prompt s := by
  intro t hl
  have ht : ∀ k ∈ t.pace, 0 < k := by
    induction hl with
    | refl => exact h
    | @write t offered _ ih =>
      have hpace : (t.write offered).2.pace = t.pace := by
        simp only [write]
        split
        · split <;> rfl
        · rfl
      intro k hk
      exact ih k (hpace ▸ hk)
    | read room _ ih => exact fun k hk => ih k (List.mem_of_mem_tail hk)
    | setTimeout milliseconds _ ih => exact ih
    | idle _ ih => exact ih
  refine ⟨fun command n known => congrArg Prod.fst (write_known known), fun room hroom hu => ⟨_, rfl, ?_⟩⟩
  have hmost : 0 < t.most room := by
    rw [most]
    cases hp : t.pace with
    | nil => simpa using hroom
    | cons k pace =>
      have hk : 0 < k := ht k (by simp [hp])
      simp only [List.headD_cons]
      omega
  intro hnone
  rcases List.take_eq_nil_iff.1 hnone with hz | hn
  · omega
  · exact hu hn

end Ecu
end MemsProbe
