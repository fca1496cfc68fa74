/-
What an exchange with the ECU means.

`Attempt.Means` says it of the record alone, by what became of the byte and
what was heard after it: which answer this makes for, and which reads there
can have been at all. It has one case for each way in which an exchange can
go, and they exclude each other.

`exchange_means` says that every exchange answers so, whatever pieces the
line gives its bytes out in and wherever it falls silent or fails. It makes
no call but its write and those reads, each for no more than is still
missing, so that a line which holds bytes back has all that came after the
reply still to give. An operation carries its commands out in turn, each
with such a meaning, and tells of the first that failed.
-/
import MemsProbe.Proofs.Ecu
import MemsProbe.Proofs.Listening
import MemsProbe.Proofs.Operations

namespace MemsProbe

/-! ## Calls over a line -/

/-- The bytes that a read brought. -/
def heardBytes : Heard → List UInt8
  | .ok bytes => bytes
  | .error _ => []

theorem delivered_unbroken {hs : List Heard} (hu : Unbroken hs) : delivered hs = hs.flatMap heardBytes := by
  induction hs with
  | nil => rfl
  | cons h hs ih =>
    obtain ⟨b, more, rfl⟩ := hu h List.mem_cons_self
    rw [delivered, List.flatMap_cons, ih fun h hm => hu h (List.mem_cons_of_mem _ hm)]
    rfl

theorem Unbroken.length_le {hs : List Heard} (hu : Unbroken hs) : hs.length ≤ (delivered hs).length := by
  induction hs with
  | nil => exact Nat.le_refl 0
  | cons h hs ih =>
    obtain ⟨b, more, rfl⟩ := hu h List.mem_cons_self
    have := ih fun h hm => hu h (List.mem_cons_of_mem _ hm)
    simp only [delivered, List.length_append, List.length_cons]
    omega

/-- What ends a reply brings nothing. -/
theorem heardBytes_stop {stop : Heard} (hstop : endsReply stop = true) :
    heardBytes stop = [] ∧ delivered [stop] = [] := by
  rcases stop with e | _ | ⟨b, more⟩
  · exact ⟨rfl, rfl⟩
  · exact ⟨rfl, rfl⟩
  · cases hstop

namespace Line

variable {σ : Type} [Line σ]

/-- These bytes were offered and these reads were made, and the line gave the
answers that are recorded. -/
inductive Undergoes : σ → List Call → σ → Prop
  | nil (s : σ) : Undergoes s [] s
  | write : Line.write offered s = (taken, t) → Undergoes t calls u →
      Undergoes s (.write offered taken :: calls) u
  | read : Line.read room s = (answer, t) → Undergoes t calls u →
      Undergoes s (.read room (answer.map Subtype.val) :: calls) u

/-- What a line has yet to give out: a read takes the bytes that it brings
off the front, and no others. -/
def Holds (unread : σ → List UInt8) (s : σ) : Prop :=
  ∀ t room, Leads s t →
    unread t = heardBytes ((Line.read room t).1.map Subtype.val) ++ unread (Line.read room t).2

variable {s t u : σ} {calls more : List Call} {unread : σ → List UInt8}

theorem Undergoes.trans (h : Undergoes s calls t) (h' : Undergoes t more u) : Undergoes s (calls ++ more) u := by
  induction h with
  | nil => exact h'
  | write hw _ ih => exact .write hw (ih h')
  | read hr _ ih => exact .read hr (ih h')

theorem Holds.leads (h : Holds unread s) (hl : Leads s t) : Holds unread t :=
  fun v room hv => h v room (hl.trans hv)

/-- Reads take what they bring. -/
theorem Undergoes.takes (h : Undergoes s calls t) (hold : Holds unread s) (hreads : attempts calls = []) :
    unread s = (heardFirst calls).flatMap heardBytes ++ unread t := by
  induction h with
  | nil => rfl
  | write => cases hreads
  | @read room s answer t calls u hr _ ih =>
    have hfirst := hold s room (.refl s)
    have hrest := ih (hold.leads (by simpa [hr] using (Leads.refl s).read room)) hreads
    rw [hr] at hfirst
    rw [hfirst, hrest, heardFirst, List.flatMap_cons, List.append_assoc]

end Line

namespace Link

variable {σ : Type} [Line σ] {l l₁ l' : Link σ} {calls more : List Call}

/-- These calls were made over a link, and no others. -/
def Undergoes (l : Link σ) (calls : List Call) (l' : Link σ) : Prop :=
  l'.calls.toList = l.calls.toList ++ calls ∧ Line.Undergoes l.line calls l'.line

theorem Undergoes.refl (l : Link σ) : l.Undergoes [] l :=
  ⟨(List.append_nil _).symm, .nil _⟩

theorem Undergoes.trans (h : l.Undergoes calls l₁) (h' : l₁.Undergoes more l') : l.Undergoes (calls ++ more) l' :=
  ⟨by rw [h'.1, h.1, List.append_assoc], h.2.trans h'.2⟩

theorem write_undergoes {offered : List UInt8} {taken} (h : l.write offered = (taken, l')) :
    l.Undergoes [.write offered taken] l' :=
  ⟨write_calls h, .write (line_write h) (.nil _)⟩

theorem read_undergoes {room : Nat} {answer} (h : l.read room = (answer, l')) :
    l.Undergoes [.read room (answer.map Subtype.val)] l' :=
  ⟨read_calls h, .read (line_read h) (.nil _)⟩

end Link

/-! ## What was heard -/

namespace Wire

/-- The failure that a silence or a fault makes for, when some bytes have
arrived of those awaited. That of a silence counts both. -/
def shortfall (command : UInt8) (arrived awaited : Nat) : Heard → Failure
  | .ok _ => .timeout s!"reply to 0x{Hex.byte command} ({arrived} of {awaited} bytes)"
  | .error e => e

theorem silence_eq (command : UInt8) (arrived awaited : Nat) :
    .silence command arrived awaited = shortfall command arrived awaited (.ok []) := by
  have hlead : "reply to 0x" = "reply to " ++ "0x" := by decide
  simp only [Failure.silence, shortfall, text, hlead, String.append_assoc]
  rfl

/-- The reads that wait for so many bytes: each is for those that the reads
before it did not bring. -/
def awaiting (awaited : Nat) : List Heard → List Call
  | [] => []
  | h :: hs => .read awaited h :: awaiting (awaited - (heardBytes h).length) hs

/-- What there is after waiting for bytes, on top of those that had arrived:
all of them, or what makes up for their being too few. -/
inductive Gathers (command : UInt8) (awaited : Nat) (arrived : List UInt8) :
    List Heard → Except Failure (List UInt8) → Prop
  | whole : Unbroken hs → (arrived ++ delivered hs).length = awaited →
      Gathers command awaited arrived hs (.ok (arrived ++ delivered hs))
  | short : Unbroken hs → endsReply stop = true → (arrived ++ delivered hs).length < awaited →
      Gathers command awaited arrived (hs ++ [stop])
        (.error (shortfall command (arrived ++ delivered hs).length awaited stop))

variable {command : UInt8} {awaited : Nat} {arrived : List UInt8} {hs : List Heard}
  {answer : Except Failure (List UInt8)}

theorem Gathers.full (command : UInt8) (hlen : arrived.length = awaited) :
    Gathers command awaited arrived [] (.ok arrived) := by
  have h : Gathers command awaited arrived [] (.ok (arrived ++ delivered [])) :=
    .whole (by simp [Unbroken]) (by simpa [delivered] using hlen)
  simpa [delivered] using h

theorem Gathers.stopped {stop : Heard} (command : UInt8) (hstop : endsReply stop = true)
    (hlen : arrived.length < awaited) :
    Gathers command awaited arrived [stop] (.error (shortfall command arrived.length awaited stop)) := by
  have h : Gathers command awaited arrived ([] ++ [stop])
      (.error (shortfall command (arrived ++ delivered []).length awaited stop)) :=
    .short (by simp [Unbroken]) hstop (by simpa [delivered] using hlen)
  simpa [delivered] using h

theorem Gathers.cons {b : UInt8} {more : List UInt8}
    (h : Gathers command awaited (arrived ++ b :: more) hs answer) :
    Gathers command awaited arrived (.ok (b :: more) :: hs) answer := by
  have hcons : ∀ {hs : List Heard}, Unbroken hs → Unbroken (.ok (b :: more) :: hs) :=
    fun hu => List.forall_mem_cons.2 ⟨⟨b, more, rfl⟩, hu⟩
  cases h with
  | whole hu hlen =>
    rw [List.append_assoc] at hlen ⊢
    exact .whole (hcons hu) hlen
  | @short hs stop hu hstop hlen =>
    rw [List.append_assoc] at hlen ⊢
    exact .short (hcons hu) hstop hlen

@[simp] theorem attempts_awaiting (awaited : Nat) (hs : List Heard) : attempts (awaiting awaited hs) = [] := by
  induction hs generalizing awaited with
  | nil => rfl
  | cons h hs ih => exact ih _

@[simp] theorem heardFirst_awaiting (awaited : Nat) (hs : List Heard) : heardFirst (awaiting awaited hs) = hs := by
  induction hs generalizing awaited with
  | nil => rfl
  | cons h hs ih => rw [awaiting, heardFirst, ih]

end Wire

namespace Link

variable {σ : Type} [Line σ] {l l' : Link σ} {command : UInt8} {awaited : Nat}

theorem readOn_gathers {arrived : List UInt8} {fits : arrived.length ≤ awaited} {answer}
    (h : l.readOn command awaited arrived fits = (answer, l')) :
    ∃ hs, Wire.Gathers command awaited arrived hs (answer.map Subtype.val) ∧
      l.Undergoes (Wire.awaiting (awaited - arrived.length) hs) l' := by
  fun_induction readOn command awaited arrived fits l with
  | case1 arrived fits l full =>
    obtain ⟨rfl, rfl⟩ := Prod.mk.inj h
    exact ⟨[], .full command full, .refl l⟩
  | case2 arrived fits l short e l₁ hr =>
    obtain ⟨rfl, rfl⟩ := Prod.mk.inj h
    exact ⟨[.error e], .stopped command rfl (Nat.lt_of_le_of_ne fits short), read_undergoes hr⟩
  | case3 arrived fits l short room l₁ hr =>
    obtain ⟨rfl, rfl⟩ := Prod.mk.inj h
    rw [Wire.silence_eq]
    exact ⟨[.ok []], .stopped command rfl (Nat.lt_of_le_of_ne fits short), read_undergoes hr⟩
  | case4 arrived fits l short b more room l₁ hr ih =>
    obtain ⟨hs, hg, hu⟩ := ih h
    refine ⟨.ok (b :: more) :: hs, hg.cons, ?_⟩
    rw [List.length_append, ← Nat.sub_sub] at hu
    exact (read_undergoes hr).trans hu

theorem readExactly_gathers {answer} (h : l.readExactly command awaited = (answer, l')) :
    ∃ hs, Wire.Gathers command awaited [] hs (answer.map Vector.toList) ∧
      l.Undergoes (Wire.awaiting awaited hs) l' := by
  unfold readExactly at h
  split at h
  next e l₁ hr =>
    obtain ⟨rfl, rfl⟩ := Prod.mk.inj h
    exact readOn_gathers hr
  next bytes hb l₁ hr =>
    obtain ⟨rfl, rfl⟩ := Prod.mk.inj h
    obtain ⟨hs, hg, hu⟩ := readOn_gathers hr
    exact ⟨hs, by simpa [Except.map] using hg, hu⟩

end Link

/-! ## What it means -/

/-- What an exchange answers, by what became of its byte and by what was
heard after that. -/
inductive Attempt.Means (command : UInt8) (length : Nat) : Attempt → Except Failure (List UInt8) → Prop
  /-- The byte was not written, and nothing was read. -/
  | unwritten : Means command length ⟨[command], .error e, []⟩ (.error e)
  /-- Another number of bytes was counted than the one, and nothing was read. -/
  | miscounted : count ≠ 1 → Means command length ⟨[command], .ok count, []⟩ (.error (.shortWrite 1 count))
  /-- No byte came back. -/
  | unechoed : endsReply stop = true →
      Means command length ⟨[command], .ok 1, [stop]⟩ (.error (Wire.shortfall command 0 1 stop))
  /-- The byte that came back was another one, and nothing more was read. -/
  | misheard : b ≠ command →
      Means command length ⟨[command], .ok 1, [.ok [b]]⟩ (.error (.unexpectedEcho command b))
  /-- The reply was cut short. -/
  | cut : Unbroken hs → endsReply stop = true → (delivered hs).length < length →
      Means command length ⟨[command], .ok 1, .ok [command] :: (hs ++ [stop])⟩
        (.error (Wire.shortfall command (delivered hs).length length stop))
  /-- The whole reply was there, and no more of it was read. -/
  | answered : Unbroken hs → (delivered hs).length = length →
      Means command length ⟨[command], .ok 1, .ok [command] :: hs⟩ (.ok (delivered hs))

/-- The calls of an exchange that is to be answered with so many bytes: its
write, a read for the echo and the reads for the reply. -/
def Attempt.calls (length : Nat) (a : Attempt) : List Call :=
  .write a.offered a.taken :: (Wire.awaiting 1 (a.heard.take 1) ++ Wire.awaiting length (a.heard.drop 1))

/-- What is held after the byte was taken is what was brought, and then what
is held at the end. -/
theorem Line.Undergoes.leaves {σ : Type} [Line σ] {s t : σ} {length : Nat} {a : Attempt} {unread : σ → List UInt8}
    (h : Line.Undergoes s (a.calls length) t) (hold : Line.Holds unread s) :
    unread (Line.write a.offered s).2 = a.heard.flatMap heardBytes ++ unread t := by
  cases h with
  | @write _ _ _ u _ _ hw hreads =>
    obtain rfl : (Line.write a.offered s).2 = u := by rw [hw]
    have htakes := hreads.takes (hold.leads ((Line.Leads.refl s).write a.offered))
      (by simp [attempts_append_of_unwritten])
    rwa [heardFirst_append (Wire.attempts_awaiting _ _), Wire.heardFirst_awaiting, Wire.heardFirst_awaiting,
      List.take_append_drop] at htakes

namespace Attempt.Means

variable {command : UInt8} {length : Nat} {a : Attempt} {answer : Except Failure (List UInt8)}

theorem offered (h : a.Means command length answer) : a.offered = [command] := by
  cases h <;> rfl

/-- There is at most one read for each byte. -/
theorem heard_length (h : a.Means command length answer) : a.heard.length ≤ 1 + length := by
  cases h with
  | unwritten | miscounted => exact Nat.zero_le _
  | unechoed | misheard => exact Nat.le_add_right 1 length
  | cut hu _ hlen =>
    have := hu.length_le
    simp only [List.length_cons, List.length_append, List.length_nil]
    omega
  | answered hu hlen =>
    have := hu.length_le
    simp only [List.length_cons]
    omega

/-- What was delivered is all that was brought. -/
theorem heard_bytes (h : a.Means command length answer) : a.heard.flatMap heardBytes = delivered a.heard := by
  cases h with
  | unwritten | miscounted | misheard => rfl
  | unechoed hstop =>
    obtain ⟨hnone, hnone'⟩ := heardBytes_stop hstop
    rw [hnone', List.flatMap_singleton, hnone]
  | @cut hs stop hu hstop hlen =>
    obtain ⟨hnone, hnone'⟩ := heardBytes_stop hstop
    rw [delivered, delivered_append hu, hnone', delivered_unbroken hu, List.flatMap_cons, List.flatMap_append,
      List.flatMap_singleton, hnone]
    rfl
  | answered hu hlen =>
    rw [delivered, delivered_unbroken hu]
    rfl

end Attempt.Means

namespace Wire

variable {command : UInt8} {hs : List Heard}

/-- One byte is brought by one read. -/
theorem Gathers.one {bytes : List UInt8} (h : Gathers command 1 [] hs (.ok bytes)) :
    ∃ b, bytes = [b] ∧ hs = [.ok [b]] := by
  cases h with
  | whole hu hlen =>
    rcases hs with _ | ⟨h, hs⟩
    · cases hlen
    · obtain ⟨b, more, rfl⟩ := hu h List.mem_cons_self
      have hrest : hs.length ≤ (delivered hs).length :=
        Unbroken.length_le fun h hm => hu h (List.mem_cons_of_mem _ hm)
      simp only [List.nil_append, delivered, List.length_append, List.length_cons] at hlen
      obtain rfl := List.eq_nil_of_length_eq_zero (show more.length = 0 by omega)
      obtain rfl := List.eq_nil_of_length_eq_zero (show hs.length = 0 by omega)
      exact ⟨b, rfl, rfl⟩

/-- And if it does not come, that is all that was heard. -/
theorem Gathers.none {e : Failure} (h : Gathers command 1 [] hs (.error e)) :
    ∃ stop, endsReply stop = true ∧ hs = [stop] ∧ e = shortfall command 0 1 stop := by
  cases h with
  | @short hs stop hu hstop hlen =>
    have hnone := hu.length_le
    rw [List.nil_append] at hlen
    obtain rfl := List.eq_nil_of_length_eq_zero (show hs.length = 0 by omega)
    exact ⟨stop, hstop, rfl, rfl⟩

end Wire

namespace Link

variable {σ : Type} [Line σ] {l l' : Link σ} {command : UInt8} {length : Nat}

theorem writeAll_undergoes (length : Nat) {answer} (h : l.writeAll [command] = (answer, l')) :
    ∃ taken, l.Undergoes [.write [command] taken] l' ∧ (answer = .ok () → taken = .ok 1) ∧
      ∀ e, answer = .error e → Attempt.Means command length ⟨[command], taken, []⟩ (.error e) := by
  unfold writeAll at h
  split at h
  next e l₁ hw =>
    obtain ⟨rfl, rfl⟩ := Prod.mk.inj h
    refine ⟨.error e, write_undergoes hw, nofun, fun f hf => ?_⟩
    obtain rfl := Except.error.inj hf
    exact .unwritten
  next count l₁ hw =>
    split at h
    next heq =>
      obtain ⟨rfl, rfl⟩ := Prod.mk.inj h
      exact ⟨.ok count, write_undergoes hw, fun _ => congrArg Except.ok heq, nofun⟩
    next hne =>
      obtain ⟨rfl, rfl⟩ := Prod.mk.inj h
      refine ⟨.ok count, write_undergoes hw, nofun, fun f hf => ?_⟩
      obtain rfl := Except.error.inj hf
      exact .miscounted hne

theorem readEcho_undergoes (length : Nat) {answer} (h : l.readEcho command = (answer, l')) :
    ∃ heard, l.Undergoes [.read 1 heard] l' ∧ (answer = .ok () → heard = .ok [command]) ∧
      ∀ e, answer = .error e → Attempt.Means command length ⟨[command], .ok 1, [heard]⟩ (.error e) := by
  unfold readEcho at h
  split at h
  next e l₁ hr =>
    obtain ⟨rfl, rfl⟩ := Prod.mk.inj h
    obtain ⟨hs, hg, hu⟩ := readExactly_gathers hr
    obtain ⟨stop, hstop, rfl, rfl⟩ := hg.none
    refine ⟨stop, hu, by simp, fun f hf => ?_⟩
    obtain rfl := Except.error.inj hf
    exact .unechoed hstop
  next echo l₁ hr =>
    obtain ⟨hs, hg, hu⟩ := readExactly_gathers hr
    obtain ⟨b, hb, rfl⟩ := hg.one
    have hecho : echo[0] = b := by simpa [toList_of_one] using hb
    rw [hecho] at h
    split at h
    next heq =>
      obtain ⟨rfl, rfl⟩ := Prod.mk.inj h
      exact ⟨.ok [b], hu, fun _ => by rw [heq], by simp⟩
    next hne =>
      obtain ⟨rfl, rfl⟩ := Prod.mk.inj h
      refine ⟨.ok [b], hu, by simp, fun f hf => ?_⟩
      obtain rfl := Except.error.inj hf
      exact .misheard hne

/-- An exchange makes the calls of one attempt and answers what it means. -/
theorem exchange_undergoes {answer} (h : l.exchange command length = (answer, l')) :
    ∃ a : Attempt, a.Means command length (answer.map Vector.toList) ∧ l.Undergoes (a.calls length) l' := by
  unfold exchange at h
  split at h
  next e l₁ hw =>
    obtain ⟨rfl, rfl⟩ := Prod.mk.inj h
    obtain ⟨taken, hu, -, herr⟩ := writeAll_undergoes length hw
    exact ⟨_, herr e rfl, hu⟩
  next l₁ hw =>
  obtain ⟨taken, hu, hok, -⟩ := writeAll_undergoes length hw
  obtain rfl := hok rfl
  split at h
  next e l₂ hr =>
    obtain ⟨rfl, rfl⟩ := Prod.mk.inj h
    obtain ⟨heard, hu', -, herr⟩ := readEcho_undergoes length hr
    exact ⟨_, herr e rfl, hu.trans hu'⟩
  next l₂ hr =>
  obtain ⟨heard, hu', hok, -⟩ := readEcho_undergoes length hr
  obtain rfl := hok rfl
  obtain ⟨hs, hg, hu''⟩ := readExactly_gathers h
  refine ⟨⟨[command], .ok 1, .ok [command] :: hs⟩, ?_, (hu.trans hu').trans hu''⟩
  generalize answer.map Vector.toList = reply at hg
  cases hg with
  | whole hub hlen => exact .answered hub hlen
  | short hub hstop hlen => exact .cut hub hstop hlen

end Link

namespace Client

variable {σ : Type} [Line σ] {c c' : Client σ}

/-- A byte was exchanged for a reply of the given length, with this answer. -/
structure Exchanges (c : Client σ) (command : UInt8) (length : Nat) (answer : Except Failure (List UInt8))
    (a : Attempt) (c' : Client σ) : Prop where
  means : a.Means command length answer
  /-- There are these calls and no others. -/
  calls : c.link.Undergoes (a.calls length) c'.link
  reads : a.heard.length ≤ 1 + length
  /-- What a line held after it had taken the byte is what was delivered, and
  then what it holds now. -/
  leaves : ∀ unread, Line.Holds unread c.link.line →
    unread (Line.write [command] c.link.line).2 = delivered a.heard ++ unread c'.link.line
  connected : c'.connected = c.connected

/-- The requests of a script were exchanged one after the other until one
failed; nothing else was done over the line. -/
inductive Carries : List Wire.Request → Client σ → Pursued → Client σ → Prop
  | done (c : Client σ) : Carries [] c (.ok []) c
  | failed {r : Wire.Request} {c c₁ c' : Client σ} : c.Exchanges r.command r.length (.error e) a c₁ → Alike c₁ c' →
      Carries (r :: script) c (.error (r.command, e)) c'
  | next {r : Wire.Request} {bytes : Vector UInt8 r.length} {outcome : Pursued} {c c₁ c₂ c' : Client σ} :
      c.Exchanges r.command r.length (.ok bytes.toList) a c₁ → Alike c₁ c₂ → Carries script c₂ outcome c' →
      Carries (r :: script) c (outcome.map (r.reply bytes :: ·)) c'

theorem exchange_exchanges {command : UInt8} {length : Nat} {answer} (hc : c.connected = true)
    (h : c.exchange command length = (answer, c')) :
    ∃ a, c.Exchanges command length (answer.map Vector.toList) a c' := by
  simp only [exchange, hc, if_true] at h
  obtain ⟨rfl, rfl⟩ := Prod.mk.inj h
  obtain ⟨a, hmeans, hu⟩ := Link.exchange_undergoes (Prod.eta (c.link.exchange command length)).symm
  refine ⟨a, hmeans, hu, hmeans.heard_length, fun unread hold => ?_, hc.symm⟩
  rw [← hmeans.offered, ← hmeans.heard_bytes]
  exact hu.2.leaves hold

/-- What an operation pursues it carries out. -/
theorem Pursues.carries {requests : List Wire.Request} {outcome : Pursued} (h : Pursues requests c outcome c')
    (hc : c.connected = true) : Carries requests c outcome c' := by
  induction h with
  | done c => exact .done c
  | failed he ha =>
    obtain ⟨a, hx⟩ := exchange_exchanges hc he
    exact .failed hx ha
  | next he ha _ ih =>
    obtain ⟨a, hx⟩ := exchange_exchanges hc he
    exact .next hx ha (ih (ha.connected.trans (hx.connected.trans hc)))

/-- **What an exchange means**, for any command byte, any length of the reply
and any line. One byte is offered, and unless it is counted as one, nothing
is read and that is the failure. Otherwise the bytes before the first silence
or fault decide: none of them, and it is the echo that did not come; another
one than the command, and it alone is taken; too few after it, and the
failure counts those that came; or else the answer is just as many as were
awaited. Each of at most so many reads asks only for what is missing, and what
comes after stays where it is. An operation exchanges its commands in turn up
to the first that fails, and its answer is made up of the replies or else of
that failure: a step of the wake-up names itself, and an actuator turns a
missing answer into a command that failed. -/
theorem exchange_means (c : Client σ) (connected : c.connected = true) :
    (∀ command length, ∃ a, c.Exchanges command length ((c.exchange command length).1.map Vector.toList) a
        (c.exchange command length).2) ∧
      ∀ op, ∃ outcome, Carries op.script c outcome (c.perform op).2 ∧ Tells op outcome (c.perform op).1 := by
  refine ⟨fun command length => exchange_exchanges connected (Prod.eta (c.exchange command length)).symm, fun op => ?_⟩
  obtain ⟨outcome, hp, ht⟩ := perform_pursues (Prod.eta (c.perform op)).symm
  exact ⟨outcome, hp.carries connected, ht⟩

/-- An ECU whose line brings single bytes, and has two of them to bring from
before. -/
def belated : Client Ecu where
  link := { line := { unread := [0xFB, 0x10], content := fun _ _ => 0x20, pace := [1, 1, 1] } }

/-- The old bytes make for an answer, and the new ones are left. -/
theorem belated_means :
    ∃ a : Attempt, a.Means 0xFB 1 (.ok [0x10]) ∧ a.heard.length ≤ 2 ∧
      [0xFB, 0x10, 0xFB, 0x20] = delivered a.heard ++ [0xFB, 0x20] := by
  have hold : Line.Holds Ecu.unread belated.link.line := fun t room _ => (List.take_append_drop ..).symm
  obtain ⟨hexchange, -⟩ := exchange_means belated rfl
  obtain ⟨a, hx⟩ := hexchange 0xFB 1
  have hanswer : (belated.exchange 0xFB 1).1.map Vector.toList = .ok [0x10] := by
    have hfound : (belated.exchange 0xFB 1).1.toOption = some #v[0x10] := by decide +kernel
    generalize (belated.exchange 0xFB 1).1 = answer at hfound ⊢
    cases answer with
    | error e => cases hfound
    | ok reply =>
      rw [Option.some.inj hfound]
      rfl
  have hleft : (belated.exchange 0xFB 1).2.link.line.unread = [0xFB, 0x20] := by decide +kernel
  have hmeans := hx.means
  have hleaves := hx.leaves Ecu.unread hold
  rw [hanswer] at hmeans
  rw [hleft] at hleaves
  exact ⟨a, hmeans, hx.reads, hleaves⟩

end Client
end MemsProbe
