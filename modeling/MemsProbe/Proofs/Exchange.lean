/-
One exchange with the ECU, as the record of the link shows it.

`Attempt.Answered` says of an attempt alone, without the client, that it
went well: the byte was taken, and the reads brought its echo and a reply
of the length that the byte asks for before the first silence or fault.
`exchange_made` is the one fact about the client that the rest is built on:
an exchange is exactly one attempt, and it gives a reply exactly when that
attempt was answered with it.
-/
import MemsProbe.Client
import MemsProbe.Proofs.Record

namespace MemsProbe

/-- The length of the reply to a command byte, where the ECU knows it. -/
def Wire.replyLength? : UInt8 → Option Nat
  | 0xCA | 0x75 => some 0
  | 0xD0 => some 4
  | 0x80 => some 28
  | 0x7D => some 32
  | 0xFB | 0x11 | 0x01 | 0x12 | 0x02 | 0x13 | 0x03 | 0xF7 | 0xF8 | 0xFE | 0xFD => some 1
  | _ => none

/-- The byte of the attempt was taken, and its echo and a whole reply were
heard. -/
def Attempt.Answered (a : Attempt) (command : UInt8) (reply : List UInt8) : Prop :=
  a.offered = [command] ∧ a.taken = .ok 1 ∧ delivered a.heard = command :: reply ∧
    Wire.replyLength? command = some reply.length

/-- The attempt was answered, with whatever reply. -/
def Attempt.Succeeded (a : Attempt) : Prop :=
  ∃ command reply, a.Answered command reply

theorem Attempt.succeeded_iff {a : Attempt} {b : UInt8} (ho : a.offered = [b]) :
    a.Succeeded ↔ ∃ reply, a.Answered b reply := by
  constructor
  · rintro ⟨b', reply, ha⟩
    obtain rfl : b = b' := by simpa [ho] using ha.1
    exact ⟨reply, ha⟩
  · rintro ⟨reply, ha⟩
    exact ⟨b, reply, ha⟩

theorem Actuator.replyLength?_code (a : Actuator) : Wire.replyLength? a.code = some 1 := by
  cases a <;> rfl

theorem toList_of_zero {α : Type} (v : Vector α 0) : v.toList = [] :=
  List.eq_nil_of_length_eq_zero (by simp)

theorem toList_of_one {α : Type} (v : Vector α 1) (pos : 0 < 1) : v.toList = [v[0]] := by
  refine List.ext_getElem (by simp) fun i hi _ => ?_
  obtain rfl : i = 0 := by simpa using hi
  simp

namespace Link

variable {σ : Type} [Line σ] {l l' : Link σ}

/-- What reading on brings is what was delivered, and it is all there unless
a silence or a fault came first. -/
theorem readOn_hears {command : UInt8} {awaited : Nat} {arrived : List UInt8}
    {fits : arrived.length ≤ awaited} {answer}
    (h : l.readOn command awaited arrived fits = (answer, l')) :
    ∃ hs, l.Hears hs l' ∧
      (∀ got, answer = .ok got → Unbroken hs ∧ got.1 = arrived ++ delivered hs) ∧
      (∀ e, answer = .error e → arrived.length + (delivered hs).length < awaited) := by
  fun_induction readOn command awaited arrived fits l with
  | case1 arrived fits l full =>
    obtain ⟨rfl, rfl⟩ := Prod.mk.inj h
    exact ⟨[], .refl l, by simp [Unbroken, delivered], by simp⟩
  | case2 arrived fits l short e l₁ hr =>
    obtain ⟨rfl, rfl⟩ := Prod.mk.inj h
    exact ⟨[.error e], read_hears hr, by simp, by simp [delivered]; omega⟩
  | case3 arrived fits l short room l₁ hr =>
    obtain ⟨rfl, rfl⟩ := Prod.mk.inj h
    exact ⟨[.ok []], read_hears hr, by simp, by simp [delivered]; omega⟩
  | case4 arrived fits l short b more room l₁ hr ih =>
    obtain ⟨hs, hh, hok, herr⟩ := ih h
    refine ⟨.ok (b :: more) :: hs, (read_hears hr).trans hh, fun got hg => ?_, fun e he => ?_⟩
    · obtain ⟨hu, hg⟩ := hok got hg
      exact ⟨by simpa [Unbroken] using hu, by simp [hg, delivered]⟩
    · have := herr e he
      simp [delivered] at this ⊢
      omega

theorem readExactly_hears {command : UInt8} {awaited : Nat} {answer}
    (h : l.readExactly command awaited = (answer, l')) :
    ∃ hs, l.Hears hs l' ∧ (∀ got, answer = .ok got → Unbroken hs ∧ delivered hs = got.toList) ∧
      (∀ e, answer = .error e → (delivered hs).length < awaited) := by
  unfold readExactly at h
  split at h
  next e l₁ hr =>
    obtain ⟨rfl, rfl⟩ := Prod.mk.inj h
    obtain ⟨hs, hh, -, herr⟩ := readOn_hears hr
    exact ⟨hs, hh, by simp, fun _ _ => by simpa using herr e rfl⟩
  next bytes hb l₁ hr =>
    obtain ⟨rfl, rfl⟩ := Prod.mk.inj h
    obtain ⟨hs, hh, hok, -⟩ := readOn_hears hr
    obtain ⟨hu, hg⟩ := hok _ rfl
    refine ⟨hs, hh, fun got hgot => ⟨hu, ?_⟩, by simp⟩
    simp only [Except.ok.injEq] at hgot
    subst hgot
    simpa using hg.symm

theorem readEcho_hears {command : UInt8} {answer} (h : l.readEcho command = (answer, l')) :
    ∃ hs, l.Hears hs l' ∧ (answer = .ok () → Unbroken hs ∧ delivered hs = [command]) ∧
      (∀ e, answer = .error e → ∀ rest, delivered hs ≠ command :: rest) := by
  unfold readEcho at h
  split at h
  next e l₁ hr =>
    obtain ⟨rfl, rfl⟩ := Prod.mk.inj h
    obtain ⟨hs, hh, -, herr⟩ := readExactly_hears hr
    have hlen := herr e rfl
    exact ⟨hs, hh, by simp, fun _ _ rest hd => by simp [hd] at hlen⟩
  next echo l₁ hr =>
    obtain ⟨hs, hh, hok, -⟩ := readExactly_hears hr
    obtain ⟨hu, hd⟩ := hok echo rfl
    have hecho := toList_of_one echo Nat.one_pos
    split at h
    next heq =>
      obtain ⟨rfl, rfl⟩ := Prod.mk.inj h
      exact ⟨hs, hh, fun _ => ⟨hu, by rw [hd, hecho, heq]⟩, by simp⟩
    next hne =>
      obtain ⟨rfl, rfl⟩ := Prod.mk.inj h
      refine ⟨hs, hh, by simp, fun _ _ rest hd' => hne ?_⟩
      rw [hd, hecho] at hd'
      exact (List.cons.inj hd').1

/-- An exchange is one attempt, and it gives a reply just when the attempt
was answered with that reply. -/
theorem exchange_made {command : UInt8} {n : Nat} {answer} (hn : Wire.replyLength? command = some n)
    (h : l.exchange command n = (answer, l')) :
    ∃ a : Attempt, l.Makes [a] l' ∧ a.offered = [command] ∧
      ∀ reply, answer.map Vector.toList = .ok reply ↔ a.Answered command reply := by
  unfold exchange at h
  split at h
  next e l₁ hw =>
    obtain ⟨rfl, rfl⟩ := Prod.mk.inj h
    obtain ⟨taken, hw, ht⟩ := writeAll_one hw
    refine ⟨_, write_makes hw (.refl _), rfl, fun reply => ⟨nofun, fun h => ?_⟩⟩
    exact absurd (ht.2 h.2.1) nofun
  next l₁ hw =>
    obtain ⟨taken, hw, ht⟩ := writeAll_one hw
    obtain rfl := ht.1 rfl
    split at h
    next e l₂ hr =>
      obtain ⟨rfl, rfl⟩ := Prod.mk.inj h
      obtain ⟨hs, hh, -, herr⟩ := readEcho_hears hr
      refine ⟨_, write_makes hw hh, rfl, fun reply => ⟨nofun, fun h => ?_⟩⟩
      exact absurd h.2.2.1 (herr e rfl reply)
    next l₂ hr =>
      obtain ⟨hs, hh, hok, -⟩ := readEcho_hears hr
      obtain ⟨hu, hd⟩ := hok rfl
      obtain ⟨hs', hh', hok', herr'⟩ := readExactly_hears h
      refine ⟨_, write_makes hw (hh.trans hh'), rfl, fun reply => ?_⟩
      have hdel : delivered (hs ++ hs') = command :: delivered hs' := by
        rw [delivered_append hu, hd, List.singleton_append]
      cases answer with
      | error e =>
        refine ⟨nofun, fun h => ?_⟩
        obtain ⟨-, -, hd', hl⟩ := h
        have hlt := herr' e rfl
        simp only [hdel, List.cons.injEq, true_and] at hd'
        simp only [hn, Option.some.injEq] at hl
        rw [hd', hl] at hlt
        exact absurd hlt (Nat.lt_irrefl _)
      | ok got =>
        obtain ⟨-, hgot⟩ := hok' got rfl
        simp only [Except.map, Except.ok.injEq, Attempt.Answered, hdel, hgot, List.cons.injEq, true_and, hn]
        exact ⟨fun h => ⟨h, by simp [← h]⟩, fun h => h.1⟩

end Link

namespace Client

variable {σ : Type}

/-- The attempts that lead from one client to another, which is as connected
as the first. -/
def Makes (c : Client σ) (made : List Attempt) (c' : Client σ) : Prop :=
  c.link.Makes made c'.link ∧ c'.connected = c.connected

variable {c c' c'' : Client σ} {made made' : List Attempt}

theorem Makes.refl (c : Client σ) : c.Makes [] c :=
  ⟨.refl _, rfl⟩

theorem Makes.trans (h : c.Makes made c') (h' : c'.Makes made' c'') : c.Makes (made ++ made') c'' :=
  ⟨h.1.trans h'.1, h'.2.trans h.2⟩

theorem Makes.connected (h : c.Makes made c') (hc : c.connected = true) : c'.connected = true :=
  h.2.trans hc

theorem Makes.note (h : c.Makes made c') (n : Note) : c.Makes made (c'.note n) :=
  ⟨h.1.note n, h.2⟩

theorem Makes.pause (h : c.Makes made c') (milliseconds : Nat) : c.Makes made (c'.pause milliseconds) :=
  ⟨h.1.pause milliseconds, h.2⟩

theorem Makes.disconnect (h : c.Makes made c') : c.link.Makes made c'.disconnect.link := by
  simp only [Client.disconnect]
  split
  · exact h.1.note _
  · exact h.1

variable [Line σ]

theorem exchange_made {command : UInt8} {n : Nat} {answer} (hc : c.connected = true)
    (hn : Wire.replyLength? command = some n) (h : c.exchange command n = (answer, c')) :
    ∃ a : Attempt, c.Makes [a] c' ∧ a.offered = [command] ∧
      ∀ reply, answer.map Vector.toList = .ok reply ↔ a.Answered command reply := by
  simp only [exchange, hc, if_true] at h
  obtain ⟨rfl, rfl⟩ := Prod.mk.inj h
  obtain ⟨a, hm, ho, hr⟩ := Link.exchange_made hn (Prod.eta (c.link.exchange command n)).symm
  exact ⟨a, ⟨hm, hc.symm⟩, ho, hr⟩

end Client
end MemsProbe
