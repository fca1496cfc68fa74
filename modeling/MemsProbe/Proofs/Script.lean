/-
Scripts: the bytes that an operation of the client offers when all goes
well.

`Follows script made` says that the attempts made offer the bytes of the
script one by one, each only if the attempt before it succeeded, and that
they stop short of its end only where one did not succeed. Every operation
of the client and every actuator test follows a script that is fixed
beforehand, whatever the line does; the two loops over the idle air control
valve follow one byte again and again, as often as they go round.
-/
import Mathlib.Data.List.Forall2
import MemsProbe.Actuation
import MemsProbe.Proofs.Operations

namespace MemsProbe

/-- The attempts offer the bytes of the script in turn and go on just as
long as they succeed. -/
inductive Follows : List UInt8 → List Attempt → Prop
  | done : Follows [] []
  | broken : a.offered = [b] → ¬ a.Succeeded → Follows (b :: script) [a]
  | next : a.offered = [b] → a.Succeeded → Follows script made → Follows (b :: script) (a :: made)

theorem Follows.single {script : List UInt8} {made : List Attempt} (h : Follows script made) :
    ∀ a ∈ made, ∃ b, a.offered = [b] := by
  induction h with
  | done => simp
  | broken ho _ => simp [ho]
  | next ho _ _ ih => simpa [ho] using ih

/-- The attempts were answered, one by one, with these replies. -/
def Answers (made : List Attempt) (replies : List Wire.Reply) : Prop :=
  List.Forall₂ (fun a r => a.Answered r.command r.bytes) made replies

/-- An attempt is answered with one reply only. -/
theorem Attempt.reply_unique {a : Attempt} {r r' : Wire.Reply} (h : a.Answered r.command r.bytes)
    (h' : a.Answered r'.command r'.bytes) : r = r' := by
  obtain ⟨-, -, hd, -⟩ := h
  obtain ⟨-, -, hd', -⟩ := h'
  obtain ⟨hc, hb⟩ := List.cons.inj (hd.symm.trans hd')
  cases r
  cases r'
  simp_all

namespace Client

variable {σ α β : Type} {c c₁ c' : Client σ} {b : UInt8} {script : List UInt8}

/-- The client followed a script. -/
def Performs (c : Client σ) (script : List UInt8) (c' : Client σ) : Prop :=
  ∃ made, c.Makes made c' ∧ Follows script made

/-- One attempt, which succeeded just when there is an answer. -/
def Asks (c : Client σ) (b : UInt8) (answer : Except Failure α) (c' : Client σ) : Prop :=
  ∃ a : Attempt, c.Makes [a] c' ∧ a.offered = [b] ∧ (a.Succeeded ↔ ∃ v, answer = .ok v)

theorem Makes.alike {made : List Attempt} (h : c.Makes made c₁) (ha : Alike c₁ c') : c.Makes made c' :=
  ⟨h.1.of_calls_eq ha.calls, ha.connected.trans h.2⟩

theorem Performs.nil (c : Client σ) : c.Performs [] c :=
  ⟨[], .refl c, .done⟩

theorem Performs.note (h : c.Performs script c') (n : Note) : c.Performs script (c'.note n) := by
  obtain ⟨made, hm, hf⟩ := h
  exact ⟨made, hm.note n, hf⟩

theorem Performs.connected (h : c.Performs script c') (hc : c.connected = true) : c'.connected = true := by
  obtain ⟨_, hm, _⟩ := h
  exact hm.connected hc

theorem Asks.note {answer : Except Failure α} (h : c.Asks b answer c') (n : Note) :
    c.Asks b answer (c'.note n) := by
  obtain ⟨a, hm, ho, hs⟩ := h
  exact ⟨a, hm.note n, ho, hs⟩

theorem Asks.pause {answer : Except Failure α} (h : c.Asks b answer c') (milliseconds : Nat) :
    c.Asks b answer (c'.pause milliseconds) := by
  obtain ⟨a, hm, ho, hs⟩ := h
  exact ⟨a, hm.pause milliseconds, ho, hs⟩

theorem Asks.connected {answer : Except Failure α} (h : c.Asks b answer c') (hc : c.connected = true) :
    c'.connected = true := by
  obtain ⟨_, hm, _⟩ := h
  exact hm.connected hc

/-- Only whether there is an answer counts, not which. -/
theorem Asks.answered {v : α} (h : c.Asks b (.ok v) c') (w : β) : c.Asks b (Except.ok w) c' := by
  obtain ⟨a, hm, ho, hs⟩ := h
  exact ⟨a, hm, ho, by simpa using hs⟩

theorem Asks.refused {e : Failure} (h : c.Asks b (.error e : Except Failure α) c') (f : Failure) :
    c.Asks b (.error f : Except Failure β) c' := by
  obtain ⟨a, hm, ho, hs⟩ := h
  exact ⟨a, hm, ho, by simpa using hs⟩

/-- Without an answer the script is broken off. -/
theorem Asks.broken {e : Failure} (h : c.Asks b (.error e : Except Failure α) c') :
    c.Performs (b :: script) c' := by
  obtain ⟨a, hm, ho, hs⟩ := h
  exact ⟨[a], hm, .broken ho (by simpa using hs)⟩

/-- With an answer the script goes on. -/
theorem Asks.next {v : α} (h : c.Asks b (.ok v) c₁) (h' : c₁.Performs script c') :
    c.Performs (b :: script) c' := by
  obtain ⟨a, hm, ho, hs⟩ := h
  obtain ⟨made, hm', hf⟩ := h'
  exact ⟨a :: made, hm.trans hm', .next ho (hs.2 ⟨v, rfl⟩) hf⟩

theorem Asks.performs {answer : Except Failure α} (h : c.Asks b answer c') : c.Performs [b] c' := by
  cases answer with
  | error e => exact h.broken
  | ok v => exact h.next (.nil c')

/-! ## The operations of the client -/

variable [Line σ]

theorem exchange_asks {n : Nat} {answer} (hc : c.connected = true) (hn : Wire.replyLength? b = some n)
    (h : c.exchange b n = (answer, c')) : c.Asks b answer c' := by
  obtain ⟨a, hm, ho, hr⟩ := exchange_made hc hn h
  refine ⟨a, hm, ho, ?_⟩
  rw [Attempt.succeeded_iff ho]
  constructor
  · rintro ⟨reply, ha⟩
    have hr := (hr reply).2 ha
    cases answer with
    | error e => cases hr
    | ok v => exact ⟨v, rfl⟩
  · rintro ⟨v, rfl⟩
    exact ⟨v.toList, (hr _).1 rfl⟩

/-- What an operation pursues it follows, and it comes to replies just when
the attempts were answered with them. -/
theorem Pursues.made {requests : List Wire.Request} {outcome : Pursued} (h : Pursues requests c outcome c')
    (hc : c.connected = true) :
    ∃ made, c.Makes made c' ∧ Follows (requests.map (·.command)) made ∧
      ∀ replies, outcome = .ok replies ↔ Answers made replies := by
  induction h with
  | done c =>
    refine ⟨[], .refl c, .done, fun replies => ?_⟩
    rw [Answers, List.forall₂_nil_left_iff, Except.ok.injEq]
    exact eq_comm
  | @failed e requests r c c₁ c' he ha =>
    obtain ⟨a, hm, ho, hr⟩ := exchange_made hc r.known he
    have hfail : ¬ a.Succeeded := by
      rw [Attempt.succeeded_iff ho]
      rintro ⟨reply, ha⟩
      exact nomatch (hr reply).2 ha
    refine ⟨[a], hm.alike ha, .broken ho hfail, fun replies => ⟨nofun, fun h => ?_⟩⟩
    cases h with
    | cons hanswer _ => exact absurd ⟨_, _, hanswer⟩ hfail
  | @next requests r bytes outcome c c₁ c₂ c' he ha _ ih =>
    obtain ⟨a, hm, ho, hr⟩ := exchange_made hc r.known he
    have hanswer := (hr bytes.toList).1 rfl
    have hm := hm.alike ha
    obtain ⟨made, hm', hf, hrest⟩ := ih (hm.connected hc)
    refine ⟨a :: made, hm.trans hm', .next ho ⟨_, _, hanswer⟩ hf, fun replies => ⟨fun h => ?_, fun h => ?_⟩⟩
    · cases outcome with
      | error e => cases h
      | ok later =>
        obtain rfl := Except.ok.inj h
        exact .cons hanswer ((hrest later).1 rfl)
    · cases h with
      | @cons _ reply _ later hanswer' hlater =>
        have hreply : r.reply bytes = reply := Attempt.reply_unique hanswer hanswer'
        rw [(hrest later).2 hlater, ← hreply]
        rfl

theorem Pursues.performs {requests : List Wire.Request} {outcome : Pursued} (h : Pursues requests c outcome c')
    (hc : c.connected = true) : c.Performs (requests.map (·.command)) c' := by
  obtain ⟨made, hm, hf, -⟩ := h.made hc
  exact ⟨made, hm, hf⟩

theorem readData_performs {answer} (hc : c.connected = true) (h : c.readData = (answer, c')) :
    c.Performs [0x80] c' := by
  obtain ⟨_, hp, -⟩ := readData_pursues h
  exact hp.performs hc

theorem readRaw_performs {answer} (hc : c.connected = true) (h : c.readRaw = (answer, c')) :
    c.Performs [0x80, 0x7D] c' := by
  obtain ⟨_, hp, -⟩ := readRaw_pursues h
  exact hp.performs hc

theorem readIacPosition_performs {answer} (hc : c.connected = true) (h : c.readIacPosition = (answer, c')) :
    c.Performs [0xFB] c' := by
  obtain ⟨_, hp, -⟩ := readIacPosition_pursues h
  exact hp.performs hc

theorem testActuator_asks {actuator : Actuator} {answer} (hc : c.connected = true)
    (h : c.testActuator actuator = (answer, c')) : c.Asks actuator.code answer c' := by
  unfold testActuator at h
  split at h
  next e c₁ he =>
    obtain ⟨rfl, rfl⟩ := Prod.mk.inj h
    exact ((exchange_asks hc actuator.replyLength?_code he).refused _).note _
  next reply c₁ he =>
    obtain ⟨rfl, rfl⟩ := Prod.mk.inj h
    exact (exchange_asks hc actuator.replyLength?_code he).answered _

end Client

/-! ## The actuator tests -/

namespace Actuation

variable {σ : Type} [Line σ] {c c' : Client σ}

theorem singleShot_performs {actuator : Actuator} {answer} (hc : c.connected = true)
    (h : singleShot actuator c = (answer, c')) : c.Performs [actuator.code] c' := by
  unfold singleShot at h
  split at h
  all_goals
    next ht =>
      obtain ⟨rfl, rfl⟩ := Prod.mk.inj h
      exact (Client.testActuator_asks hc ht).performs

theorem toggleRelay_performs {relay : Relay} {answer} (hc : c.connected = true)
    (h : toggleRelay relay c = (answer, c')) : c.Performs [relay.on.code, relay.off.code] c' := by
  unfold toggleRelay at h
  split at h
  next e c₁ ht =>
    obtain ⟨rfl, rfl⟩ := Prod.mk.inj h
    exact (Client.testActuator_asks hc ht).broken
  next readback c₁ ht =>
    have ha := (Client.testActuator_asks hc ht).pause relayHold
    refine ha.next ?_
    split at h
    all_goals
      next ht' =>
        obtain ⟨rfl, rfl⟩ := Prod.mk.inj h
        exact (Client.testActuator_asks (ha.connected hc) ht').performs

/-- Closing sends one command again and again, as long as it succeeds. -/
theorem closeFrom_performs {rounds remaining attempts : Nat} {answer} (hc : c.connected = true)
    (h : closeFrom rounds remaining attempts c = (answer, c')) :
    ∃ n, c.Performs (List.replicate n Actuator.closeIac.code) c' := by
  fun_induction closeFrom rounds remaining attempts c with
  | case1 | case2 =>
    obtain ⟨rfl, rfl⟩ := Prod.mk.inj h
    exact ⟨0, .nil _⟩
  | case3 rounds remaining attempts c _ e c₁ ht =>
    obtain ⟨rfl, rfl⟩ := Prod.mk.inj h
    exact ⟨1, (Client.testActuator_asks hc ht).broken⟩
  | case4 rounds remaining attempts c _ readback c₁ ht =>
    obtain ⟨rfl, rfl⟩ := Prod.mk.inj h
    exact ⟨1, ((Client.testActuator_asks hc ht).next (.nil _)).note _⟩
  | case5 rounds remaining attempts c _ readback c₁ ht _ ih =>
    have ha := Client.testActuator_asks hc ht
    obtain ⟨n, hp⟩ := ih (ha.connected hc) h
    exact ⟨n + 1, ha.next hp⟩

/-- And so does opening. -/
theorem openFrom_performs {rounds attempts : Nat} {answer} (hc : c.connected = true)
    (h : openFrom rounds attempts c = (answer, c')) :
    ∃ n, c.Performs (List.replicate n Actuator.openIac.code) c' := by
  fun_induction openFrom rounds attempts c with
  | case1 =>
    obtain ⟨rfl, rfl⟩ := Prod.mk.inj h
    exact ⟨0, .nil _⟩
  | case2 =>
    obtain ⟨rfl, rfl⟩ := Prod.mk.inj h
    exact ⟨0, (Client.Performs.nil _).note _⟩
  | case3 rounds attempts c _ e c₁ ht =>
    obtain ⟨rfl, rfl⟩ := Prod.mk.inj h
    exact ⟨1, (Client.testActuator_asks hc ht).broken⟩
  | case4 rounds attempts c _ readback c₁ ht =>
    obtain ⟨rfl, rfl⟩ := Prod.mk.inj h
    exact ⟨1, ((Client.testActuator_asks hc ht).next (.nil _)).note _⟩
  | case5 rounds attempts c _ readback c₁ ht _ ih =>
    have ha := Client.testActuator_asks hc ht
    obtain ⟨n, hp⟩ := ih (ha.connected hc) h
    exact ⟨n + 1, ha.next hp⟩

end Actuation
end MemsProbe
