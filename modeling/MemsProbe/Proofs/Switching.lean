/-
Switching a relay on and off.

A toggle is two exchanges and a wait between them. `Relay.Toggled` says which
calls it makes, in which order, and what comes of it, by what each of the two
exchanges means: a relay that was not switched on is the end of it; one that
was is held once, after all that was done to switch it on and before anything
is done to switch it off.

`toggleRelay_toggles` says that every toggle goes so, over any line. What its
user wishes meanwhile has no part in it: it is the same toggle as that of a
user who never asks to stop.
-/
import MemsProbe.Proofs.Meaning
import MemsProbe.Proofs.StoppedRuns

namespace MemsProbe

/-! ## Calls with pauses among them -/

section

variable {σ : Type} [Line σ] {s t : σ} {l l₁ l' : Link σ} {calls more : List Call}

theorem Line.Undergoes.reaches (h : Line.Undergoes s calls t) : calls.filter (·.reachesLine) = calls := by
  rw [List.filter_eq_self]
  induction h with
  | nil => exact fun call hcall => nomatch hcall
  | write _ _ ih => exact List.forall_mem_cons.2 ⟨rfl, ih⟩
  | read _ _ ih => exact List.forall_mem_cons.2 ⟨rfl, ih⟩

/-- These calls were added to the record of a link, and those that reach the
line are what the line underwent. -/
def Link.Records (l : Link σ) (calls : List Call) (l' : Link σ) : Prop :=
  l'.calls.toList = l.calls.toList ++ calls ∧ Line.Undergoes l.line (calls.filter (·.reachesLine)) l'.line

theorem Link.Undergoes.records (h : l.Undergoes calls l') : l.Records calls l' := by
  obtain ⟨hcalls, hline⟩ := h
  refine ⟨hcalls, ?_⟩
  rwa [hline.reaches]

theorem Link.Records.refl (l : Link σ) : l.Records [] l :=
  (Link.Undergoes.refl l).records

theorem Link.Records.trans (h : l.Records calls l₁) (h' : l₁.Records more l') : l.Records (calls ++ more) l' := by
  obtain ⟨hcalls, hline⟩ := h
  obtain ⟨hcalls', hline'⟩ := h'
  refine ⟨by rw [hcalls', hcalls, List.append_assoc], ?_⟩
  rw [List.filter_append]
  exact hline.trans hline'

theorem Link.pause_records (milliseconds : Nat) (l : Link σ) : l.Records [.pause milliseconds] (l.pause milliseconds) :=
  ⟨by simp [Link.pause], .nil l.line⟩

end

/-! ## Working an actuator -/

/-- What working an actuator comes to, and its calls: those of one exchange,
and none over a link that is disconnected. -/
inductive Actuator.Worked (actuator : Actuator) : (connected : Bool) → List Call → Except Failure UInt8 → Prop
  | answered {a : Attempt} : a.Means actuator.code 1 (.ok [readback]) →
      Worked actuator true (a.calls 1) (.ok readback)
  | unanswered {a : Attempt} : a.Means actuator.code 1 (.error e) →
      Worked actuator true (a.calls 1) (.error ((Operation.testActuator actuator).failure actuator.code e))
  | disconnected : Worked actuator false [] (.error (Wire.refusal actuator.code))

theorem Client.testActuator_worked {σ : Type} [Line σ] {c c' : Client σ} {actuator : Actuator} {answer}
    (h : c.testActuator actuator = (answer, c')) :
    c'.connected = c.connected ∧ ∃ calls, actuator.Worked c.connected calls answer ∧ c.link.Records calls c'.link := by
  unfold testActuator at h
  cases hc : c.connected with
  | false =>
    rw [exchange_disconnected hc] at h
    obtain ⟨rfl, rfl⟩ := Prod.mk.inj h
    exact ⟨hc, [], .disconnected, .refl c.link⟩
  | true =>
    obtain ⟨a, hx⟩ := exchange_exchanges hc (Prod.eta (c.exchange actuator.code 1)).symm
    have hmeans := hx.means
    have hcalls := hx.calls.records
    have hconnected := hx.connected.trans hc
    split at h
    next e c₁ he =>
      obtain ⟨rfl, rfl⟩ := Prod.mk.inj h
      rw [he] at hmeans hcalls hconnected
      rw [actuatorFailure_eq]
      exact ⟨hconnected, a.calls 1, .unanswered hmeans, hcalls⟩
    next reply c₁ he =>
      obtain ⟨rfl, rfl⟩ := Prod.mk.inj h
      rw [he] at hmeans hcalls hconnected
      have hreply : a.Means actuator.code 1 (.ok [reply[0]]) := by
        rwa [Except.map, toList_of_one reply Nat.one_pos] at hmeans
      exact ⟨hconnected, a.calls 1, .answered hreply, hcalls⟩

/-! ## Toggling a relay -/

/-- How a relay is toggled: the calls in their order, and what comes of it. -/
inductive Relay.Toggled (relay : Relay) (connected : Bool) : List Call → Except Failure ActuationReport → Prop
  /-- The relay was not switched on, and that is all. -/
  | unswitched : relay.on.Worked connected calls (.error e) → Toggled relay connected calls (.error e)
  /-- It was held, and could not be switched off. -/
  | stuck : relay.on.Worked connected before (.ok held) → relay.off.Worked connected after (.error e) →
      Toggled relay connected (before ++ .pause 2000 :: after) (.error e)
  /-- It was held and switched off; the report is of that. -/
  | switched : relay.on.Worked connected before (.ok held) → relay.off.Worked connected after (.ok readback) →
      Toggled relay connected (before ++ .pause 2000 :: after) (.ok ⟨relay.off, 2, readback⟩)

namespace Actuation

variable {σ : Type} [Line σ]

/-- **A relay that was switched on is held and switched off**, whatever the
line does. A toggle is the exchange that switches the relay on; if that
fails in any way, its failure is the answer, and nothing more is called for,
not even a wait. Otherwise there is one wait of two seconds and then the
exchange that switches the same relay off, whose answer is reported, or whose
failure is the answer. All this is as it would be for a user who never asks to
stop. -/
theorem toggleRelay_toggles (relay : Relay) (c : Client σ) :
    let run := toggleRelay relay c
    (∃ calls, relay.Toggled c.connected calls run.1 ∧ c.link.Records calls run.2.link) ∧
      ∃ d', toggleRelay relay c.undisturbed = (run.1, d') ∧ SameLine run.2.link d'.link := by
  intro run
  constructor
  · have hon := Client.testActuator_worked (Prod.eta (c.testActuator relay.on)).symm
    obtain ⟨hconnected, before, hworked, hrecords⟩ := hon
    simp only [run, toggleRelay]
    split
    next e c₁ ht =>
      rw [ht] at hworked hrecords
      exact ⟨before, .unswitched hworked, hrecords⟩
    next held c₁ ht =>
    rw [ht] at hconnected hworked hrecords
    have hheld := hrecords.trans (Link.pause_records relayHold c₁.link)
    have hoff := Client.testActuator_worked (Prod.eta ((c₁.pause relayHold).testActuator relay.off)).symm
    obtain ⟨-, after, hworked', hrecords'⟩ := hoff
    rw [show (c₁.pause relayHold).connected = c.connected from hconnected] at hworked'
    have hall := hheld.trans hrecords'
    rw [List.append_assoc, List.singleton_append] at hall
    split
    next e c₂ ht' =>
      rw [ht'] at hworked' hall
      exact ⟨_, .stuck hworked hworked', hall⟩
    next readback c₂ ht' =>
      rw [ht'] at hworked' hall
      exact ⟨_, .switched hworked hworked', hall⟩
  · have htwins : Client.Twins SameLine c c.undisturbed := ⟨⟨rfl, rfl⟩, rfl⟩
    have hpause : ∀ {l : Link σ} {m : Link (Undisturbed σ)}, SameLine l m →
        SameLine (l.pause relayHold) (m.pause relayHold) :=
      fun h => ⟨h.line, congrArg (·.push (.pause relayHold)) h.calls⟩
    obtain ⟨answer, c', d', hc, hd, hafter⟩ := toggleRelay_simulated sameLine_simulates hpause relay htwins
    rw [show run = (answer, c') from hc]
    exact ⟨d', hd, hafter.links⟩

end Actuation
end MemsProbe
