/-
Reading a reply of no fixed length to its end.

`Line.listen` is that reading and nothing else: single bytes are read until
a silence, a fault or the wish to stop, and neither a buffer nor a count of
what was dropped comes into it. The console reads a reply in two loops, one
that keeps bytes and one that drops them once the buffer is full; both are
shown to listen (`discardRest_listens`, `receive_listens`), out of the same
rounds, so where the one hands over to the other cannot be told from the
line.
-/
import MemsProbe.Console
import MemsProbe.Proofs.Leads
import MemsProbe.Proofs.Record

namespace MemsProbe

/-- A reply ends with a silence or a fault. -/
def endsReply : Heard → Bool
  | .ok (_ :: _) => false
  | _ => true

/-- Bytes, and then the silence or fault that ends them. -/
def IsReply (hs : List Heard) : Prop :=
  ∃ bytes stop, hs = bytes ++ [stop] ∧ Unbroken bytes ∧ endsReply stop = true

theorem IsReply.single {h : Heard} (he : endsReply h = true) : IsReply [h] :=
  ⟨[], h, rfl, by simp [Unbroken], he⟩

theorem IsReply.cons {hs : List Heard} (hr : IsReply hs) (b : UInt8) (more : List UInt8) :
    IsReply (.ok (b :: more) :: hs) := by
  obtain ⟨bytes, stop, rfl, hu, he⟩ := hr
  exact ⟨.ok (b :: more) :: bytes, stop, rfl, by simpa [Unbroken] using hu, he⟩

namespace Line

variable {σ : Type} [Line σ]

/-- Reads single bytes until a silence, a fault or the wish to stop: what
the reads came to, and the line after them. -/
def listen : (rounds : Nat) → σ → List Heard × σ
  | 0, s => ([], s)
  | rounds + 1, s =>
    if cancelled s then ([], s)
    else
      match read 1 s with
      | (answer, s) =>
        let h : Heard := answer.map Subtype.val
        if endsReply h then ([h], s) else (h :: (listen rounds s).1, (listen rounds s).2)

theorem NeverStops.listen {s : σ} (h : NeverStops s) (rounds : Nat) : NeverStops (listen rounds s).2 := by
  induction rounds generalizing s with
  | zero => exact h
  | succ rounds ih =>
    have hread : NeverStops (Line.read 1 s).2 := h.read rfl
    simp only [Line.listen]
    split
    · exact h
    · split
      · exact hread
      · exact ih hread

end Line

namespace Link

variable {σ : Type} [Line σ] {l l₁ l' : Link σ} {rounds : Nat} {hs : List Heard}

/-- The line was listened to from one link to the other, and nothing else
was done over it. -/
def Listens (rounds : Nat) (l : Link σ) (hs : List Heard) (l' : Link σ) : Prop :=
  Line.listen rounds l.line = (hs, l'.line) ∧
    l'.calls.toList = l.calls.toList ++ hs.map (.read 1)

theorem Listens.note (h : Listens rounds l hs l') (n : Note) : Listens rounds l hs (l'.note n) :=
  h

theorem Listens.hears (h : Listens rounds l hs l') : l.Hears hs l' := by
  refine ⟨_, h.2, ?_, ?_⟩
  · clear h
    induction hs with
    | nil => rfl
    | cons _ _ ih => simpa [attempts] using ih
  · clear h
    induction hs with
    | nil => rfl
    | cons _ _ ih => simpa [heardFirst] using ih

theorem listens_zero (l : Link σ) : Listens 0 l [] l :=
  ⟨rfl, by simp⟩

theorem listens_cancelled (hc : l.cancelled = true) : Listens (rounds + 1) l [] l := by
  simp [Listens, Line.listen, show Line.cancelled l.line = true from hc]

theorem listens_end {answer} (hc : ¬ l.cancelled = true) (hr : l.read 1 = (answer, l₁))
    (he : endsReply (answer.map Subtype.val) = true) :
    Listens (rounds + 1) l [answer.map Subtype.val] l₁ := by
  obtain rfl : (l.read 1).1 = answer := by rw [hr]
  obtain rfl : (l.read 1).2 = l₁ := by rw [hr]
  have he : endsReply ((Line.read 1 l.line).1.map Subtype.val) = true := he
  simp [Listens, Line.listen, show ¬ Line.cancelled l.line = true from hc, he, read]

theorem listens_byte {answer} (hc : ¬ l.cancelled = true) (hr : l.read 1 = (answer, l₁))
    (he : ¬ endsReply (answer.map Subtype.val) = true) (h : Listens rounds l₁ hs l') :
    Listens (rounds + 1) l (answer.map Subtype.val :: hs) l' := by
  obtain rfl : (l.read 1).1 = answer := by rw [hr]
  obtain rfl : (l.read 1).2 = l₁ := by rw [hr]
  have he : ¬ endsReply ((Line.read 1 l.line).1.map Subtype.val) = true := he
  obtain ⟨hl, hcalls⟩ := h
  have hl : Line.listen rounds (Line.read 1 l.line).2 = (hs, l'.line) := hl
  refine ⟨?_, by simp [hcalls, read]⟩
  simp [Line.listen, show ¬ Line.cancelled l.line = true from hc, he, hl, read]

end Link

namespace Console

variable {σ : Type} [Line σ] {l l' : Link σ} {rounds : Nat}

theorem discardRest_listens {discarded : Nat} {answer} (h : discardRest rounds discarded l = (answer, l')) :
    ∃ hs, Link.Listens rounds l hs l' ∧
      (Line.NeverStops l.line → answer ≠ .unfinished → IsReply hs) := by
  fun_induction discardRest rounds discarded l with
  | case1 discarded l =>
    obtain ⟨rfl, rfl⟩ := Prod.mk.inj h
    exact ⟨[], Link.listens_zero l, fun _ hne => absurd rfl hne⟩
  | case2 rounds discarded l hc =>
    obtain ⟨rfl, rfl⟩ := Prod.mk.inj h
    exact ⟨[], Link.listens_cancelled hc, fun hn _ => absurd hc (by simp [Link.cancelled, hn _ (.refl _)])⟩
  | case3 rounds discarded l hc e l₁ hr =>
    obtain ⟨rfl, rfl⟩ := Prod.mk.inj h
    exact ⟨_, Link.listens_end hc hr rfl, fun _ _ => .single rfl⟩
  | case4 rounds discarded l hc room l₁ hr =>
    obtain ⟨rfl, rfl⟩ := Prod.mk.inj h
    exact ⟨_, Link.listens_end hc hr rfl, fun _ _ => .single rfl⟩
  | case5 rounds discarded l hc b more room l₁ hr ih =>
    obtain ⟨hs, hl, hreply⟩ := ih h
    refine ⟨_, Link.listens_byte hc hr (by simp [Except.map, endsReply]) hl, fun hn hne => ?_⟩
    exact (hreply (hn.read (Link.line_read hr)) hne).cons b more

theorem overflow_listens {capacity : Nat} {answer} (h : overflow rounds capacity l = (answer, l')) :
    ∃ hs, Link.Listens rounds l hs l' ∧
      (Line.NeverStops l.line → answer ≠ .unfinished → IsReply hs) := by
  unfold overflow at h
  split at h
  next discarded l₁ hd =>
    obtain ⟨rfl, rfl⟩ := Prod.mk.inj h
    obtain ⟨hs, hl, hreply⟩ := discardRest_listens hd
    exact ⟨hs, hl.note _, fun hn _ => hreply hn nofun⟩
  next => exact discardRest_listens h

/-- What a buffer that held some bytes holds after a reply. -/
def Kept (before : ResponseBuffer) (hs : List Heard) (after : ResponseBuffer) : Prop :=
  after.capacity = before.capacity ∧
    after.bytes.toList = (before.bytes.toList ++ delivered hs).take before.capacity

theorem Kept.nothing (r : ResponseBuffer) {hs : List Heard} (hd : delivered hs = []) : Kept r hs r := by
  refine ⟨rfl, ?_⟩
  rw [hd, List.append_nil, List.take_of_length_le]
  simpa using r.size_le

theorem Kept.full {r : ResponseBuffer} (hf : ¬ r.size < r.capacity) (hs : List Heard) : Kept r hs r := by
  have hlen : r.bytes.toList.length = r.capacity := by
    simpa using Nat.le_antisymm r.size_le (Nat.le_of_not_lt hf)
  exact ⟨rfl, (List.take_left' hlen).symm⟩

/-- The loop that keeps bytes and the one that drops them listen as one. -/
theorem receive_listens {r r' : ResponseBuffer} {answer} (h : receive rounds r l = (answer, r', l')) :
    ∃ hs, Link.Listens rounds l hs l' ∧ Kept r hs r' ∧
      (Line.NeverStops l.line → answer ≠ .unfinished → IsReply hs) := by
  fun_induction receive rounds r l with
  | case1 r l =>
    obtain ⟨rfl, rfl, rfl⟩ := by simpa using h
    exact ⟨[], Link.listens_zero l, .nothing r rfl, fun _ hne => absurd rfl hne⟩
  | case2 rounds r l hc =>
    obtain ⟨rfl, rfl, rfl⟩ := by simpa using h
    exact ⟨[], Link.listens_cancelled hc, .nothing r rfl,
      fun hn _ => absurd hc (by simp [Link.cancelled, hn _ (.refl _)])⟩
  | case3 rounds r l hc e l₁ hr =>
    obtain ⟨rfl, rfl, rfl⟩ := by simpa using h
    exact ⟨_, Link.listens_end hc hr rfl, .nothing r rfl, fun _ _ => .single rfl⟩
  | case4 rounds r l hc room l₁ hr =>
    obtain ⟨rfl, rfl, rfl⟩ := by simpa using h
    exact ⟨_, Link.listens_end hc hr rfl, .nothing r rfl, fun _ _ => .single rfl⟩
  | case5 rounds r l hc b more fits l₁ hr hfull answer' l₂ ho =>
    obtain ⟨rfl, rfl, rfl⟩ := by simpa using h
    obtain ⟨hs, hl, hreply⟩ := overflow_listens ho
    refine ⟨_, Link.listens_byte hc hr (by simp [Except.map, endsReply]) hl, ?_, fun hn hne => ?_⟩
    · exact .full (ResponseBuffer.isFull_iff.1 hfull) _
    · exact (hreply (hn.read (Link.line_read hr)) hne).cons b _
  | case6 rounds r l hc b more fits l₁ hr hfull e hpush =>
    exact absurd hpush (ResponseBuffer.push_ne_error hfull)
  | case7 rounds r l hc b more fits l₁ hr hfull r₁ hpush ih =>
    obtain ⟨room, hpush'⟩ := ResponseBuffer.push_of_not_isFull b hfull
    obtain rfl : r₁ = r.add b room := Except.ok.inj (hpush.symm.trans hpush')
    obtain ⟨hs, hl, hk, hreply⟩ := ih h
    have hone : more = [] := by simpa using fits
    subst hone
    refine ⟨_, Link.listens_byte hc hr (by simp [Except.map, endsReply]) hl, ?_, fun hn hne => ?_⟩
    · obtain ⟨hcap, hbytes⟩ := hk
      exact ⟨hcap, by simpa [ResponseBuffer.add, Except.map, delivered] using hbytes⟩
    · exact (hreply (hn.read (Link.line_read hr)) hne).cons b _

/-! ## One exchange of the console -/

variable {c c₁ c' : Console σ} {b : UInt8}

/-- Sending is one write, after which nothing is kept. -/
theorem send_writes {answer} (h : c.send b = (answer, c')) :
    ∃ taken l', c.link.write [b] = (taken, l') ∧ c'.link.line = l'.line ∧ c'.link.calls = l'.calls ∧
      c'.response = c.response.clear ∧ c'.policy = c.policy ∧ (answer = .ok () ↔ taken = .ok 1) := by
  unfold send at h
  split at h
  all_goals
    next hw =>
      obtain ⟨rfl, rfl⟩ := Prod.mk.inj h
      obtain ⟨taken, hw, ht⟩ := Link.writeAll_one hw
      exact ⟨taken, _, hw, rfl, rfl, rfl, rfl, ht⟩

theorem drain_listens {answer} (h : c.drain rounds = (answer, c')) :
    ∃ hs, Link.Listens rounds c.link hs c'.link ∧ Kept c.response hs c'.response ∧ c'.policy = c.policy ∧
      (Line.NeverStops c.link.line → answer ≠ .unfinished → IsReply hs) := by
  obtain ⟨hs, hl, hk, hr⟩ := receive_listens (Prod.eta (receive rounds c.response c.link)).symm
  obtain ⟨rfl, rfl⟩ := Prod.mk.inj h
  exact ⟨hs, hl, hk, rfl, hr⟩

end Console
end MemsProbe
