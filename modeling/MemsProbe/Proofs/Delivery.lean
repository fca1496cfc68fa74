/-
The exact meaning of an exchange of the console.

What a line delivers is said of the line alone (`Line.Delivers`): read byte
by byte it brings some bytes, and then it stops, because the user had asked
to, because it fell silent, or because it failed. Nothing else decides an
exchange whose byte was taken (`exchange_exactly`): how long the reply was
and what stopped it give the answer, its beginning is what is kept, and it
is read to the stop and no further. The buffer of the console comes into it
with its capacity only, and is never found full.
-/
import MemsProbe.Proofs.Replies

namespace MemsProbe

/-- What stops the reading of a reply. -/
inductive Stop where
  /-- The user had asked to stop before the next read. -/
  | asked
  /-- A read brought nothing. -/
  | silence
  /-- A read failed. -/
  | fault (f : Failure)
  deriving DecidableEq

namespace Stop

/-- What the read that found out about the stop came to. Before the wish to
stop nothing is read. -/
def heard : Stop → List Heard
  | asked => []
  | silence => [.ok []]
  | fault f => [.error f]

/-- What a reply of these bytes was heard as, up to the stop. -/
def after (bytes : List UInt8) (stop : Stop) : List Heard :=
  bytes.map (fun b => .ok [b]) ++ stop.heard

theorem delivered_after (bytes : List UInt8) (stop : Stop) : delivered (stop.after bytes) = bytes := by
  induction bytes with
  | nil => cases stop <;> rfl
  | cons b bytes ih => exact congrArg (b :: ·) ih

/-- Each byte takes a read, and so does the stop unless it was asked for. -/
theorem length_after (bytes : List UInt8) (stop : Stop) :
    (stop.after bytes).length = if stop = .asked then bytes.length else bytes.length + 1 := by
  cases stop <;> simp [after, heard]

/-- What comes of dropping bytes up to the stop, so many all in all. -/
def discarding (discarded : Nat) : Stop → Outcome Nat
  | asked => .failed .cancelled
  | silence => .done discarded
  | fault f => .failed f

/-- The answer of an exchange that was delivered so many bytes before the
stop, by a console that has room for as many as its capacity says. -/
def answer (capacity length : Nat) : Stop → Outcome Nat
  | asked => .failed .cancelled
  | silence => if length ≤ capacity then .done length else .failed (.overflow capacity (length - capacity))
  | fault f => .failed f

/-- A reply is never answered with a full buffer, unless the line says so. -/
theorem answer_eq_bufferFull {capacity length : Nat} {stop : Stop} {full : Nat}
    (h : stop.answer capacity length = .failed (.bufferFull full)) : stop = .fault (.bufferFull full) := by
  cases stop with
  | asked => simp [answer] at h
  | silence =>
    rw [answer] at h
    split at h <;> simp at h
  | fault f =>
    obtain rfl : f = .bufferFull full := by simpa [answer] using h
    rfl

end Stop

namespace Line

variable {σ : Type} [Line σ]

/-- Read byte by byte, the line delivers bytes and then stops; the line
after that. -/
inductive Delivers : σ → List UInt8 → Stop → σ → Prop
  | asked {s : σ} : cancelled s = true → Delivers s [] .asked s
  | silence {s t : σ} : cancelled s = false → read 1 s = (.ok ⟨[], Nat.zero_le 1⟩, t) → Delivers s [] .silence t
  | fault {s t : σ} {f : Failure} : cancelled s = false → read 1 s = (.error f, t) → Delivers s [] (.fault f) t
  | byte {s t u : σ} {b : UInt8} {bytes : List UInt8} {stop : Stop} : cancelled s = false →
      read 1 s = (.ok ⟨[b], Nat.le_refl 1⟩, t) → Delivers t bytes stop u → Delivers s (b :: bytes) stop u

variable {s t : σ} {bytes : List UInt8} {stop : Stop} {rounds : Nat}

/-- What is delivered is heard, one byte a read, and the stop after it. -/
theorem Delivers.listen (h : Delivers s bytes stop t) (hr : bytes.length < rounds) :
    Line.listen rounds s = (stop.after bytes, t) := by
  induction h generalizing rounds with
  | asked hc =>
    obtain ⟨rounds, rfl⟩ := Nat.exists_eq_add_of_lt hr
    simp [Line.listen, hc, Stop.after, Stop.heard]
  | silence hc hread | fault hc hread =>
    obtain ⟨rounds, rfl⟩ := Nat.exists_eq_add_of_lt hr
    simp [Line.listen, hc, hread, Except.map, endsReply, Stop.after, Stop.heard]
  | @byte s t u b bytes stop hc hread _ ih =>
    obtain ⟨rounds, rfl⟩ : ∃ n, rounds = n + 1 := ⟨rounds - 1, by omega⟩
    have hrest : Line.listen rounds t = (stop.after bytes, u) := ih (by simpa using hr)
    simp [Line.listen, hc, hread, Except.map, endsReply, Stop.after, hrest]

/-- There is one thing that a line delivers. -/
theorem Delivers.unique {bytes' : List UInt8} {stop' : Stop} {t' : σ} (h : Delivers s bytes stop t)
    (h' : Delivers s bytes' stop' t') : bytes' = bytes ∧ stop' = stop ∧ t' = t := by
  induction h generalizing bytes' with
  | asked hc =>
    cases h' with
    | asked => exact ⟨rfl, rfl, rfl⟩
    | silence hc' | fault hc' | byte hc' => simp [hc] at hc'
  | silence hc hread =>
    cases h' with
    | asked hc' => simp [hc] at hc'
    | silence _ hread' =>
      cases hread.symm.trans hread'
      exact ⟨rfl, rfl, rfl⟩
    | fault _ hread' | byte _ hread' => cases hread.symm.trans hread'
  | fault hc hread =>
    cases h' with
    | asked hc' => simp [hc] at hc'
    | fault _ hread' =>
      cases hread.symm.trans hread'
      exact ⟨rfl, rfl, rfl⟩
    | silence _ hread' | byte _ hread' => cases hread.symm.trans hread'
  | byte hc hread _ ih =>
    cases h' with
    | asked hc' => simp [hc] at hc'
    | silence _ hread' | fault _ hread' => cases hread.symm.trans hread'
    | byte _ hread' hd' =>
      cases hread.symm.trans hread'
      obtain ⟨rfl, rfl, rfl⟩ := ih hd'
      exact ⟨rfl, rfl, rfl⟩

theorem Delivers.unasked (h : Delivers s bytes stop t) (never : NeverStops s) : stop ≠ .asked := by
  induction h with
  | @asked s hc =>
    have hstop := never s (.refl s)
    simp [hc] at hstop
  | silence | fault => nofun
  | byte _ hread _ ih => exact ih (never.read hread)

/-- The line stops before it has delivered so many bytes. -/
def StopsWithin (rounds : Nat) (s : σ) : Prop :=
  ∃ bytes stop t, Delivers s bytes stop t ∧ bytes.length < rounds

theorem Delivers.now (h : Delivers s [] stop t) : StopsWithin (rounds + 1) s :=
  ⟨[], stop, t, h, Nat.succ_pos _⟩

theorem StopsWithin.byte {got : { got : List UInt8 // got.length ≤ 1 }} {b : UInt8} {more : List UInt8}
    (hc : cancelled s = false) (hr : read 1 s = (.ok got, t)) (hb : got.val = b :: more)
    (h : StopsWithin rounds t) : StopsWithin (rounds + 1) s := by
  obtain ⟨bytes, stop, u, hd, hlt⟩ := h
  obtain ⟨_, le⟩ := got
  obtain rfl : _ = b :: more := hb
  obtain rfl : more = [] := by simpa using le
  exact ⟨b :: bytes, stop, u, .byte hc hr hd, Nat.succ_lt_succ hlt⟩

end Line

namespace Console

variable {σ : Type} [Line σ] {l : Link σ} {s t : σ} {bytes : List UInt8} {stop : Stop} {rounds : Nat}

/-! ## The two loops -/

theorem discardRest_delivers (h : Line.Delivers s bytes stop t) (hr : bytes.length < rounds) (hl : l.line = s)
    (discarded : Nat) : (discardRest rounds discarded l).1 = stop.discarding (discarded + bytes.length) := by
  induction h generalizing rounds discarded l with
  | asked hc =>
    obtain ⟨rounds, rfl⟩ := Nat.exists_eq_add_of_lt hr
    simp [discardRest, Link.cancelled, hl, hc, Stop.discarding]
  | silence hc hread | fault hc hread =>
    obtain ⟨rounds, rfl⟩ := Nat.exists_eq_add_of_lt hr
    simp [discardRest, Link.cancelled, Link.read, hl, hc, hread, Stop.discarding]
  | byte hc hread _ ih =>
    obtain ⟨rounds, rfl⟩ : ∃ n, rounds = n + 1 := ⟨rounds - 1, by omega⟩
    simp only [discardRest, Link.cancelled, Link.read, hl, hc, hread]
    rw [if_neg Bool.false_ne_true, ih (by simpa using hr) rfl, List.length_cons, Nat.add_assoc, Nat.add_comm 1]

/-- The byte that did not fit counts among those dropped. -/
theorem overflow_delivers (h : Line.Delivers l.line bytes stop t) (hr : bytes.length < rounds) (capacity : Nat) :
    (overflow rounds capacity l).1 = stop.answer capacity (capacity + (1 + bytes.length)) := by
  have hd := discardRest_delivers h hr rfl 1
  unfold overflow
  split
  next discarded l₁ heq =>
    rw [heq] at hd
    cases stop with
    | silence =>
      obtain rfl : discarded = 1 + bytes.length := by simpa [Stop.discarding] using hd
      rw [Stop.answer, if_neg (by omega), Nat.add_sub_cancel_left]
    | asked | fault => nomatch hd
  next hne =>
    rw [hd]
    cases stop with
    | silence => exact (hne _ _ (Prod.ext hd rfl)).elim
    | asked | fault => rfl

/-- The answer is that of the reply as a whole, whichever loop finds the
stop. -/
theorem receive_delivers (h : Line.Delivers s bytes stop t) (hr : bytes.length < rounds) (hl : l.line = s)
    (r : ResponseBuffer) : (receive rounds r l).1 = stop.answer r.capacity (r.size + bytes.length) := by
  induction h generalizing rounds r l with
  | asked hc =>
    obtain ⟨rounds, rfl⟩ := Nat.exists_eq_add_of_lt hr
    simp [receive, Link.cancelled, hl, hc, Stop.answer]
  | silence hc hread =>
    obtain ⟨rounds, rfl⟩ := Nat.exists_eq_add_of_lt hr
    have hfits : r.size ≤ r.capacity := r.size_le
    simp [receive, Link.cancelled, Link.read, hl, hc, hread, Stop.answer, hfits]
  | fault hc hread =>
    obtain ⟨rounds, rfl⟩ := Nat.exists_eq_add_of_lt hr
    simp [receive, Link.cancelled, Link.read, hl, hc, hread, Stop.answer]
  | @byte s t u b bytes stop hc hread hd ih =>
    obtain ⟨rounds, rfl⟩ : ∃ n, rounds = n + 1 := ⟨rounds - 1, by omega⟩
    have hr : bytes.length < rounds := by simpa using hr
    have hcancelled : ¬ l.cancelled = true := by simp [Link.cancelled, hl, hc]
    obtain ⟨l₁, hread', hline⟩ := Link.read_of_line hl hread
    rw [receive_byte hcancelled hread']
    by_cases room : r.size < r.capacity
    · rw [dif_pos room, ih hr hline, List.length_cons, Nat.add_comm bytes.length, ← Nat.add_assoc]
      simp [ResponseBuffer.add, ResponseBuffer.size]
    · have hfull : r.size = r.capacity := Nat.le_antisymm r.size_le (Nat.le_of_not_lt room)
      rw [dif_neg room, hfull, List.length_cons, Nat.add_comm bytes.length]
      rw [← hline] at hd
      exact overflow_delivers hd hr r.capacity

/-- A loop that ends has come to a stop. -/
theorem discardRest_ends {discarded : Nat} (h : (discardRest rounds discarded l).1 ≠ .unfinished) :
    Line.StopsWithin rounds l.line := by
  fun_induction discardRest rounds discarded l with
  | case1 => exact absurd rfl h
  | case2 rounds discarded l hc => exact (Line.Delivers.asked hc).now
  | case3 rounds discarded l hc e l₁ hr =>
    exact (Line.Delivers.fault (Bool.of_not_eq_true hc) (Link.line_read hr)).now
  | case4 rounds discarded l hc le l₁ hr =>
    exact (Line.Delivers.silence (Bool.of_not_eq_true hc) (Link.line_read hr)).now
  | case5 rounds discarded l hc b more le l₁ hr ih =>
    exact .byte (Bool.of_not_eq_true hc) (Link.line_read hr) rfl (ih h)

theorem overflow_ends {capacity : Nat} (h : (overflow rounds capacity l).1 ≠ .unfinished) :
    Line.StopsWithin rounds l.line := by
  unfold overflow at h
  split at h
  next heq =>
    have hne : (discardRest rounds 1 l).1 ≠ .unfinished := by simp [heq]
    exact discardRest_ends hne
  next => exact discardRest_ends h

theorem receive_ends {r : ResponseBuffer} (h : (receive rounds r l).1 ≠ .unfinished) :
    Line.StopsWithin rounds l.line := by
  fun_induction receive rounds r l with
  | case1 => exact absurd rfl h
  | case2 rounds r l hc => exact (Line.Delivers.asked hc).now
  | case3 rounds r l hc e l₁ hr =>
    exact (Line.Delivers.fault (Bool.of_not_eq_true hc) (Link.line_read hr)).now
  | case4 rounds r l hc le l₁ hr =>
    exact (Line.Delivers.silence (Bool.of_not_eq_true hc) (Link.line_read hr)).now
  | case5 rounds r l hc b more le l₁ hr hfull answer l₂ ho =>
    exact .byte (Bool.of_not_eq_true hc) (Link.line_read hr) rfl (overflow_ends (by rwa [ho]))
  | case6 rounds r l hc b more le l₁ hr hfull e hpush =>
    exact absurd hpush (ResponseBuffer.push_ne_error hfull)
  | case7 rounds r l hc b more le l₁ hr hfull r₁ hpush ih =>
    exact .byte (Bool.of_not_eq_true hc) (Link.line_read hr) rfl (ih h)

/-! ## An exchange -/

variable {c : Console σ} {b : UInt8}

/-- What sending comes to when the write came to this: anything but one
byte taken is a failure. -/
def sendAnswer : Except Failure Nat → Except Failure Unit
  | .ok taken => if taken = 1 then .ok () else .error (.shortWrite 1 taken)
  | .error e => .error e

theorem send_answer (b : UInt8) (c : Console σ) : (c.send b).1 = sendAnswer (Line.write [b] c.link.line).1 := by
  rcases hw : Line.write [b] c.link.line with ⟨e | taken, s⟩
  · simp [send, Link.writeAll, Link.write, hw, sendAnswer]
  · by_cases ht : taken = 1 <;> simp [send, Link.writeAll, Link.write, hw, sendAnswer, ht]

theorem exchange_answer_of_error {e : Failure} (h : (c.send b).1 = .error e) :
    (c.exchange rounds b).1 = .failed e := by
  unfold exchange
  split
  next hs =>
    rw [hs] at h
    obtain rfl := Except.error.inj h
    rfl
  next hs => simp [hs] at h

/-- Once its byte was taken, the answer of an exchange is that of the
reading of the reply, begun with nothing kept. -/
theorem exchange_answer_of_ok (rounds : Nat) (h : (Line.write [b] c.link.line).1 = .ok 1) :
    ∃ l : Link σ, l.line = (Line.write [b] c.link.line).2 ∧
      (c.exchange rounds b).1 = (receive rounds c.response.clear l).1 := by
  have hs : (c.send b).1 = .ok () := by rw [send_answer, h]; rfl
  obtain ⟨taken, l', hw, hline, -, hr, -, -⟩ := send_writes (Prod.eta (c.send b)).symm
  have hw : (Line.write [b] c.link.line).2 = l'.line := by rw [Link.line_write hw]
  refine ⟨(c.send b).2.link, by rw [hline, hw], ?_⟩
  unfold exchange
  split
  next heq => simp [heq] at hs
  next c₁ heq =>
    rw [heq] at hr
    rw [heq, ← hr]
    rfl

theorem exchange_delivers (ht : (Line.write [b] c.link.line).1 = .ok 1)
    (h : Line.Delivers (Line.write [b] c.link.line).2 bytes stop t) (hr : bytes.length < rounds) :
    (c.exchange rounds b).1 = stop.answer c.response.capacity bytes.length := by
  obtain ⟨l, hl, hrun⟩ := exchange_answer_of_ok rounds ht
  have hanswer := receive_delivers h hr hl c.response.clear
  have hsize : c.response.clear.size = 0 := rfl
  rw [hrun, hanswer, hsize, Nat.zero_add]
  rfl

theorem exchange_ends_iff (rounds : Nat) (ht : (Line.write [b] c.link.line).1 = .ok 1) :
    (c.exchange rounds b).1 ≠ .unfinished ↔ Line.StopsWithin rounds (Line.write [b] c.link.line).2 := by
  constructor
  · intro h
    obtain ⟨l, hl, hrun⟩ := exchange_answer_of_ok rounds ht
    rw [← hl]
    exact receive_ends (hrun ▸ h)
  · rintro ⟨bytes, stop, t, hd, hr⟩
    rw [exchange_delivers ht hd hr]
    cases stop with
    | asked | fault => nofun
    | silence =>
      rw [Stop.answer]
      split <;> nofun

/-- **What an exchange comes to.** Once its byte was taken, an exchange ends
if and only if the line stops, and what was delivered up to the stop decides
it: the answer is cancellation, the fault, or for a silence the length of the
reply or how much of it went over; the beginning of the reply is kept, as far
as there is room; the line was read once for each byte and once for the stop,
unless that was the wish to stop, and nothing else was done over it. A full
buffer is no answer of the console. An exchange whose byte was not taken says
so, keeps nothing and reads nothing. -/
theorem exchange_exactly (rounds : Nat) (b : UInt8) (c : Console σ) :
    let sent := Line.write [b] c.link.line
    let run := c.exchange rounds b
    (sent.1 = .ok 1 →
      (run.1 ≠ .unfinished ↔ Line.StopsWithin rounds sent.2) ∧
        ∀ bytes stop t, Line.Delivers sent.2 bytes stop t → bytes.length < rounds →
          run.1 = stop.answer c.response.capacity bytes.length ∧
            run.2.response.bytes.toList = bytes.take c.response.capacity ∧
            run.2.link.line = t ∧
            c.link.callsUntil run.2.link =
              .write [b] (.ok 1) :: (stop.after bytes).map (.read 1) ∧
            (heardIn (c.link.callsUntil run.2.link)).length =
              (if stop = .asked then bytes.length else bytes.length + 1) ∧
            ∀ capacity, run.1 = .failed (.bufferFull capacity) → stop = .fault (.bufferFull capacity)) ∧
      ∀ taken, sent.1 = taken → taken ≠ .ok 1 →
        (match taken with
          | .ok count => run.1 = .failed (.shortWrite 1 count)
          | .error e => run.1 = .failed e) ∧
          run.2.response.bytes.toList = [] ∧
          run.2.link.line = sent.2 ∧
          c.link.callsUntil run.2.link = [.write [b] taken] := by
  intro sent run
  obtain ⟨hline, hcalls, -, hbytes, -, -⟩ := exchange_inquires (Prod.eta run).symm
  have hcalls := Link.callsUntil_eq hcalls
  refine ⟨fun ht => ⟨exchange_ends_iff rounds ht, fun bytes stop t hd hlt => ?_⟩, fun taken ht hne => ?_⟩
  · have hsent : Line.write [b] c.link.line = (.ok 1, sent.2) := by rw [← ht]
    rw [Line.inquire_taken hsent, hd.listen hlt] at hline hcalls hbytes
    have hanswer : run.1 = _ := exchange_delivers ht hd hlt
    refine ⟨hanswer, ?_, hline, hcalls, ?_, fun capacity h => ?_⟩
    · rw [hbytes, Stop.delivered_after]
    · rw [hcalls, heardIn_calls, Stop.length_after]
    · exact Stop.answer_eq_bufferFull (hanswer ▸ h)
  · have hsent : Line.write [b] c.link.line = (taken, sent.2) := by rw [← ht]
    rw [Line.inquire_not_taken hsent hne] at hline hcalls hbytes
    refine ⟨?_, hbytes.trans (List.take_nil ..), hline, hcalls⟩
    have hs := send_answer b c
    rw [hsent] at hs
    cases taken with
    | error e => exact exchange_answer_of_error hs
    | ok count =>
      have hone : count ≠ 1 := fun h => hne (by rw [h])
      exact exchange_answer_of_error (by rw [hs, sendAnswer, if_neg hone])

/-- A console with room for two bytes and one still in it; the ECU answers
with three. -/
def brimming : Console ScriptedLine where
  link := { line := { replies := fun b => [[.piece [b, 1, 2]]] } }
  policy := .strict
  response := ⟨#[9], 2, by decide⟩

/-- The same, but nothing is taken of the next byte offered. -/
def unheeded : Console ScriptedLine :=
  { brimming with link := { line := { brimming.link.line with writeAnswers := [.count 0] } } }

theorem brimming_exactly :
    ((brimming.exchange 4 0x10).1 = .failed (.overflow 2 1) ∧
        (brimming.exchange 4 0x10).2.response.bytes.toList = [0x10, 1] ∧
        brimming.link.callsUntil (brimming.exchange 4 0x10).2.link =
          .write [0x10] (.ok 1) :: [.ok [0x10], .ok [1], .ok [2], .ok []].map (.read 1)) ∧
      (unheeded.exchange 4 0x10).1 = .failed (.shortWrite 1 0) ∧
        (unheeded.exchange 4 0x10).2.response.bytes.toList = [] := by
  have hd : Line.Delivers (Line.write [0x10] brimming.link.line).2 [0x10, 1, 2] .silence _ :=
    .byte rfl rfl (.byte rfl rfl (.byte rfl rfl (.silence rfl rfl)))
  obtain ⟨-, hreply⟩ := (exchange_exactly 4 0x10 brimming).1 rfl
  obtain ⟨hanswer, hkept, -, hcalls, -⟩ := hreply _ _ _ hd (by decide)
  obtain ⟨hshort, hnone, -⟩ := (exchange_exactly 4 0x10 unheeded).2 (.ok 0) rfl (by simp)
  exact ⟨⟨hanswer, hkept, hcalls⟩, hshort, hnone⟩

end Console
end MemsProbe
