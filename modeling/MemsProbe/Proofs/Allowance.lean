/-
What a line can still bring.

A line may have a reply to whatever is said to it, so how much it can bring
is asked for the bytes that will be offered and no others. `Line.Brings`
counts the bytes of all reads on the way from one state to another, and
`Line.AtMost` bounds that count for every way there is. Of such an allowance
each script that is carried out to its end takes the whole of its echoes and
replies (`Pursues.brings`), and a line that is read byte by byte stops
before it is used up (`AtMost.stopsWithin`).

A scripted line has such a bound when it repeats nothing for ever
(`ScriptedLine.Spends.atMost`).
-/
import Mathlib
import MemsProbe.Proofs.Delivery
import MemsProbe.Proofs.Operations

namespace MemsProbe

namespace Line

variable {σ : Type} [Line σ]

/-- How many bytes a read brought. -/
def brought {room : Nat} : Except Failure { got : List UInt8 // got.length ≤ room } → Nat
  | .ok got => got.val.length
  | .error _ => 0

/-- Calls that offer only such bytes, one at a time, lead from one state to
another, and bring so many bytes on the way. -/
inductive Brings (offers : UInt8 → Prop) (s : σ) : Nat → σ → Prop
  | refl : Brings offers s 0 s
  | write : offers b → Brings offers s n t → Brings offers s n (Line.write [b] t).2
  | read (room : Nat) : Brings offers s n t →
      Brings offers s (n + brought (Line.read room t).1) (Line.read room t).2
  | setTimeout (milliseconds : Nat) : Brings offers s n t → Brings offers s n (Line.setTimeout milliseconds t).2
  | idle : Brings offers s n t → Brings offers s n (Line.idle t)

/-- However it is spoken to with such bytes, the line brings no more than so
many bytes. -/
def AtMost (offers : UInt8 → Prop) (bound : Nat) (s : σ) : Prop :=
  ∀ n t, Brings offers s n t → n ≤ bound

variable {offers : UInt8 → Prop} {s t u : σ} {n m bound : Nat}

theorem Brings.trans (h : Brings offers s n t) (h' : Brings offers t m u) : Brings offers s (n + m) u := by
  induction h' with
  | refl => exact h
  | write ho _ ih => exact ih.write ho
  | read room _ ih =>
    rw [← Nat.add_assoc]
    exact ih.read room
  | setTimeout milliseconds _ ih => exact ih.setTimeout milliseconds
  | idle _ ih => exact ih.idle

theorem Brings.leads (h : Brings offers s n t) : Leads s t := by
  induction h with
  | refl => exact .refl _
  | @write b _ _ _ _ ih => exact ih.write [b]
  | read room _ ih => exact ih.read room
  | setTimeout milliseconds _ ih => exact ih.setTimeout milliseconds
  | idle _ ih => exact ih.idle

theorem Delivers.brings {bytes : List UInt8} {stop : Stop} (h : Delivers s bytes stop t) :
    Brings offers s bytes.length t := by
  induction h with
  | asked => exact .refl
  | @silence s _ _ hread | @fault s _ _ _ hread =>
    have hb := (Brings.refl : Brings offers s 0 s).read 1
    rwa [hread] at hb
  | @byte s _ _ _ _ _ _ hread _ ih =>
    have hb := (Brings.refl : Brings offers s 0 s).read 1
    rw [hread] at hb
    rw [List.length_cons, Nat.add_comm]
    exact hb.trans ih

theorem AtMost.mono {bound' : Nat} (h : AtMost offers bound s) (hle : bound ≤ bound') : AtMost offers bound' s :=
  fun n t hb => Nat.le_trans (h n t hb) hle

theorem Brings.weaken {offers' : UInt8 → Prop} (h : Brings offers s n t) (himp : ∀ b, offers b → offers' b) :
    Brings offers' s n t := by
  induction h with
  | refl => exact .refl
  | write ho _ ih => exact ih.write (himp _ ho)
  | read room _ ih => exact ih.read room
  | setTimeout milliseconds _ ih => exact ih.setTimeout milliseconds
  | idle _ ih => exact ih.idle

/-- Whoever offers less is brought no more. -/
theorem AtMost.offering {offers' : UInt8 → Prop} (h : AtMost offers bound s) (himp : ∀ b, offers' b → offers b) :
    AtMost offers' bound s :=
  fun n t hb => h n t (hb.weaken himp)

/-- What is brought is taken off the allowance. -/
theorem AtMost.after (h : AtMost offers bound s) (hb : Brings offers s n t) :
    n ≤ bound ∧ AtMost offers (bound - n) t := by
  refine ⟨h n t hb, fun m u hm => ?_⟩
  have hsum := h (n + m) u (hb.trans hm)
  omega

theorem AtMost.brings (h : AtMost offers bound s) (hb : Brings offers s n t) : AtMost offers bound t :=
  (h.after hb).2.mono (Nat.sub_le bound n)

/-- A line with an allowance stops before it is used up. -/
theorem AtMost.stopsWithin (h : AtMost offers bound s) : StopsWithin (bound + 1) s := by
  induction bound using Nat.strongRecOn generalizing s with
  | _ bound ih =>
  by_cases hc : cancelled s = true
  · exact (Delivers.asked hc).now
  have hc : cancelled s = false := Bool.of_not_eq_true hc
  have hread := (Brings.refl : Brings offers s 0 s).read 1
  rcases hr : Line.read 1 s with ⟨e | ⟨got, le⟩, t⟩
  · exact (Delivers.fault hc hr).now
  rw [hr] at hread
  cases got with
  | nil => exact (Delivers.silence hc hr).now
  | cons b more =>
    obtain ⟨hle, hrest⟩ := h.after hread
    have hpos : 1 ≤ bound := Nat.le_trans (by simp [brought]) hle
    have hless : AtMost offers (bound - 1) t := hrest.mono (by simp [brought]; omega)
    have hstops := StopsWithin.byte hc hr rfl (ih (bound - 1) (by omega) hless)
    rwa [Nat.sub_add_cancel hpos] at hstops

end Line

namespace Link

variable {σ : Type} [Line σ] {offers : UInt8 → Prop} {l l' : Link σ} {command : UInt8}

theorem read_brings {room : Nat} {answer} (h : l.read room = (answer, l')) :
    Line.Brings offers l.line (Line.brought answer) l'.line := by
  have hb := (Line.Brings.refl : Line.Brings offers l.line 0 l.line).read room
  rw [line_read h, Nat.zero_add] at hb
  exact hb

theorem write_brings {taken} (ho : offers command) (h : l.write [command] = (taken, l')) :
    Line.Brings offers l.line 0 l'.line := by
  have hb := (Line.Brings.refl : Line.Brings offers l.line 0 l.line).write ho
  rwa [line_write h] at hb

/-- Reading on takes just what was still awaited, if it all comes. -/
theorem readOn_brings {awaited : Nat} {arrived : List UInt8} {fits : arrived.length ≤ awaited} {answer}
    (h : l.readOn command awaited arrived fits = (answer, l')) :
    ∃ n, Line.Brings offers l.line n l'.line ∧ ∀ got, answer = .ok got → arrived.length + n = awaited := by
  fun_induction readOn command awaited arrived fits l with
  | case1 arrived fits l full =>
    obtain ⟨rfl, rfl⟩ := Prod.mk.inj h
    exact ⟨0, .refl, fun _ _ => full⟩
  | case2 arrived fits l short e l₁ hr =>
    obtain ⟨rfl, rfl⟩ := Prod.mk.inj h
    exact ⟨_, read_brings hr, by simp⟩
  | case3 arrived fits l short room l₁ hr =>
    obtain ⟨rfl, rfl⟩ := Prod.mk.inj h
    exact ⟨_, read_brings hr, by simp⟩
  | case4 arrived fits l short b more room l₁ hr ih =>
    obtain ⟨n, hb, hn⟩ := ih h
    refine ⟨_, (read_brings hr).trans hb, fun got hgot => ?_⟩
    have hall := hn got hgot
    simp only [List.length_append] at hall
    simp only [Line.brought]
    omega

theorem readExactly_brings {awaited : Nat} {answer} (h : l.readExactly command awaited = (answer, l')) :
    ∃ n, Line.Brings offers l.line n l'.line ∧ ∀ got, answer = .ok got → n = awaited := by
  unfold readExactly at h
  split at h
  next hr =>
    obtain ⟨rfl, rfl⟩ := Prod.mk.inj h
    obtain ⟨n, hb, -⟩ := readOn_brings hr
    exact ⟨n, hb, nofun⟩
  next hr =>
    obtain ⟨rfl, rfl⟩ := Prod.mk.inj h
    obtain ⟨n, hb, hn⟩ := readOn_brings hr
    exact ⟨n, hb, fun _ _ => by simpa using hn _ rfl⟩

theorem readEcho_brings {answer} (h : l.readEcho command = (answer, l')) :
    ∃ n, Line.Brings offers l.line n l'.line ∧ (answer = .ok () → n = 1) := by
  unfold readEcho at h
  split at h
  next hr =>
    obtain ⟨rfl, rfl⟩ := Prod.mk.inj h
    obtain ⟨n, hb, -⟩ := readExactly_brings hr
    exact ⟨n, hb, nofun⟩
  next echo l₁ hr =>
    obtain ⟨n, hb, hn⟩ : ∃ n, Line.Brings offers l.line n l₁.line ∧ _ := readExactly_brings hr
    split at h
    all_goals
      obtain ⟨-, rfl⟩ := Prod.mk.inj h
      exact ⟨n, hb, fun _ => hn echo rfl⟩

/-- An exchange that goes well takes its echo and its reply. -/
theorem exchange_brings {length : Nat} {answer} (ho : offers command)
    (h : l.exchange command length = (answer, l')) :
    ∃ n, Line.Brings offers l.line n l'.line ∧ ∀ reply, answer = .ok reply → n = 1 + length := by
  unfold exchange at h
  split at h
  next hw =>
    obtain ⟨rfl, rfl⟩ := Prod.mk.inj h
    obtain ⟨_, hw, -⟩ := writeAll_one hw
    exact ⟨0, write_brings ho hw, nofun⟩
  next hw =>
    obtain ⟨_, hw, -⟩ := writeAll_one hw
    have hwrite := write_brings ho hw
    split at h
    next hr =>
      obtain ⟨rfl, rfl⟩ := Prod.mk.inj h
      obtain ⟨n, hb, -⟩ := readEcho_brings hr
      exact ⟨_, hwrite.trans hb, nofun⟩
    next hr =>
      obtain ⟨n, hb, hn⟩ := readEcho_brings hr
      obtain ⟨m, hb', hm⟩ := readExactly_brings h
      refine ⟨_, (hwrite.trans hb).trans hb', fun reply hreply => ?_⟩
      rw [hn rfl, hm reply hreply, Nat.zero_add]

end Link

namespace Client

variable {σ : Type} [Line σ] {offers : UInt8 → Prop} {c c' : Client σ}

theorem exchange_brings {command : UInt8} {length : Nat} {answer} (ho : offers command)
    (h : c.exchange command length = (answer, c')) :
    ∃ n, Line.Brings offers c.link.line n c'.link.line ∧ ∀ reply, answer = .ok reply → n = 1 + length := by
  unfold exchange at h
  split at h
  · obtain ⟨rfl, rfl⟩ := Prod.mk.inj h
    exact Link.exchange_brings ho (Prod.eta _).symm
  · obtain ⟨rfl, rfl⟩ := Prod.mk.inj h
    exact ⟨0, .refl, nofun⟩

/-- A script that is carried out to its end takes all its echoes and
replies. -/
theorem Pursues.brings {script : List Wire.Request} {outcome : Pursued} (h : Pursues script c outcome c')
    (ho : ∀ r ∈ script, offers r.command) :
    ∃ n, Line.Brings offers c.link.line n c'.link.line ∧
      ∀ replies, outcome = .ok replies → n = (script.map fun r => 1 + r.length).sum := by
  induction h with
  | done => exact ⟨0, .refl, fun _ _ => rfl⟩
  | failed he ha =>
    obtain ⟨n, hb, -⟩ := exchange_brings (ho _ (by simp)) he
    exact ⟨n, by rwa [ha.line], nofun⟩
  | @next _ r bytes outcome _ _ _ _ he ha _ ih =>
    obtain ⟨n, hb, hn⟩ := exchange_brings (ho r (by simp)) he
    obtain ⟨m, hb', hm⟩ := ih fun r hr => ho r (by simp [hr])
    rw [ha.line] at hb'
    refine ⟨n + m, hb.trans hb', fun replies hreplies => ?_⟩
    cases outcome with
    | error e => cases hreplies
    | ok later => simp [hn bytes rfl, hm later rfl]

theorem Pursues.leads {script : List Wire.Request} {outcome : Pursued} (h : Pursues script c outcome c') :
    Line.Leads c.link.line c'.link.line := by
  obtain ⟨_, hb, -⟩ : ∃ n, Line.Brings (fun _ => True) c.link.line n c'.link.line ∧ _ := h.brings fun _ _ => trivial
  exact hb.leads

/-- Working an actuator takes two bytes, if it goes well. -/
theorem testActuator_brings {actuator : Actuator} {answer} (ho : offers actuator.code)
    (h : c.testActuator actuator = (answer, c')) :
    ∃ n, Line.Brings offers c.link.line n c'.link.line ∧ ∀ readback, answer = .ok readback → n = 2 := by
  obtain ⟨outcome, hp, ht⟩ := testActuator_pursues h
  obtain ⟨n, hb, hn⟩ := hp.brings fun r hr => by
    obtain rfl := List.mem_singleton.1 hr
    exact ho
  refine ⟨n, hb, fun readback hreadback => ?_⟩
  cases outcome with
  | error e => simp [Tells, hreadback, Except.map] at ht
  | ok replies => exact hn replies rfl

end Client

/-! ## Scripted lines -/

/-- How many bytes arrive. -/
def Arrival.size : Arrival → Nat
  | .piece bytes => bytes.length
  | .fault _ => 0

/-- How many bytes there are in a queue. -/
def waiting (queue : List Arrival) : Nat :=
  (queue.map Arrival.size).sum

theorem waiting_append (queue more : List Arrival) : waiting (queue ++ more) = waiting queue + waiting more := by
  simp [waiting]

theorem waiting_cons (a : Arrival) (queue : List Arrival) : waiting (a :: queue) = a.size + waiting queue := by
  simp [waiting]

/-- A sum in which one thing has become less. -/
theorem sum_map_add_le {α : Type} {f g : α → Nat} {c : α} {n : Nat} (hc : f c + n ≤ g c) (hd : ∀ d, f d ≤ g d)
    {l : List α} (hmem : c ∈ l) : (l.map f).sum + n ≤ (l.map g).sum := by
  induction l with
  | nil => simp at hmem
  | cons d l ih =>
    have hle : (l.map f).sum ≤ (l.map g).sum := List.sum_le_sum fun d _ => hd d
    simp only [List.map_cons, List.sum_cons]
    obtain rfl | hmem := List.mem_cons.1 hmem
    · omega
    · have hrest := ih hmem
      have hhead := hd d
      omega

namespace ScriptedLine

/-- All bytes that the script has for a line that is offered these bytes and
no others. -/
def held (vocabulary : List UInt8) (s : ScriptedLine) : Nat :=
  waiting s.queue + (vocabulary.map fun b => ((s.replies b).map waiting).sum).sum

/-- Nothing is repeated for ever: neither a byte, nor the last reply to one
of these bytes, unless there is nothing in it. -/
structure Spends (vocabulary : List UInt8) (s : ScriptedLine) : Prop where
  endless : s.endless = none
  last : ∀ b ∈ vocabulary, ∀ reply ∈ (s.replies b).getLast?, waiting reply = 0

variable {s : ScriptedLine} {vocabulary : List UInt8} {b : UInt8}

theorem Spends.answer (h : s.Spends vocabulary) (hb : b ∈ vocabulary) :
    (s.answer b).Spends vocabulary ∧ (s.answer b).held vocabulary ≤ s.held vocabulary := by
  have hlast := h.last b hb
  rw [ScriptedLine.answer]
  split
  next => exact ⟨h, Nat.le_refl _⟩
  next last hr =>
    have hbare : waiting last = 0 := hlast last (by simp [hr])
    exact ⟨⟨h.endless, h.last⟩, by simp [held, waiting_append, hbare]⟩
  next first later hne hr =>
    refine ⟨⟨h.endless, fun d hd reply hreply => ?_⟩, ?_⟩
    · by_cases hdb : d = b
      · have hlater : later ≠ [] := fun hnil => hne (by rw [hnil])
        have hreply : reply ∈ later.getLast? := by simpa [hdb] using hreply
        exact hlast reply (by rwa [hr, List.getLast?_cons_of_ne_nil hlater])
      · exact h.last d hd reply (by simpa [hdb] using hreply)
    · have hless := sum_map_add_le (f := fun d => ((if d = b then later else s.replies d).map waiting).sum)
        (g := fun d => ((s.replies d).map waiting).sum) (c := b) (n := waiting first) (by simp [hr]; omega)
        (fun d => by by_cases hdb : d = b <;> simp [hdb, hr]) hb
      simp only [held, waiting_append]
      omega

/-- What is counted and what is remembered of writes does not matter. -/
theorem Spends.alike {t : ScriptedLine} (h : s.Spends vocabulary) (hq : t.queue = s.queue)
    (hr : t.replies = s.replies) (he : t.endless = s.endless) :
    t.Spends vocabulary ∧ t.held vocabulary = s.held vocabulary :=
  ⟨⟨he.trans h.endless, by rw [hr]; exact h.last⟩, by rw [held, held, hq, hr]⟩

theorem Spends.write (h : s.Spends vocabulary) (hb : b ∈ vocabulary) :
    (s.write [b]).2.Spends vocabulary ∧ (s.write [b]).2.held vocabulary ≤ s.held vocabulary := by
  have hwith : ∀ {s : ScriptedLine} (a : WriteAnswer), s.Spends vocabulary →
      (writeWith [b] s a).2.Spends vocabulary ∧ (writeWith [b] s a).2.held vocabulary ≤ s.held vocabulary := by
    intro s a h
    cases a with
    | all => exact h.answer hb
    | count taken =>
      cases taken with
      | zero => exact ⟨h, Nat.le_refl _⟩
      | succ taken => simpa [writeWith, accept] using h.answer hb
    | fault f => exact ⟨h, Nat.le_refl _⟩
  rw [ScriptedLine.write]
  split
  · obtain ⟨hcount, hheld⟩ := h.alike (t := s.countWrite) rfl rfl rfl
    rw [← hheld]
    exact hwith .all hcount
  next a later _ =>
    obtain ⟨hcount, hheld⟩ := h.alike (t := { s.countWrite with writeAnswers := later }) rfl rfl rfl
    rw [← hheld]
    exact hwith a hcount

/-- What a read brings is no longer held. -/
theorem Spends.read (h : s.Spends vocabulary) (room : Nat) :
    (s.read room).2.Spends vocabulary ∧
      Line.brought (s.read room).1 + (s.read room).2.held vocabulary ≤ s.held vocabulary := by
  have hputBack : ∀ bytes rest, waiting (putBack bytes rest) = bytes.length + waiting rest := by
    intro bytes rest
    cases bytes <;> simp [putBack, waiting_cons, Arrival.size]
  rw [ScriptedLine.read]
  split
  next bytes rest hq =>
    refine ⟨⟨h.endless, h.last⟩, ?_⟩
    simp only [held, countRead, hputBack, hq, Line.brought, List.length_take, List.length_drop, waiting_cons,
      Arrival.size]
    omega
  next f rest hq =>
    refine ⟨⟨h.endless, h.last⟩, ?_⟩
    simp [held, countRead, hq, Line.brought, waiting_cons, Arrival.size]
  next hq =>
    simp only [h.endless]
    exact ⟨⟨h.endless, h.last⟩, by simp [held, countRead, Line.brought]⟩

/-- A scripted line brings no more than it holds. -/
theorem Spends.atMost (h : s.Spends vocabulary) : Line.AtMost (· ∈ vocabulary) (s.held vocabulary) s := by
  intro n t hb
  suffices hheld : t.Spends vocabulary ∧ n + t.held vocabulary ≤ s.held vocabulary by
    exact Nat.le_trans (Nat.le_add_right ..) hheld.2
  induction hb with
  | refl => exact ⟨h, by simp⟩
  | write hmem _ ih =>
    obtain ⟨ht, hle⟩ := ih
    obtain ⟨hu, hless⟩ := ht.write hmem
    exact ⟨hu, Nat.le_trans (Nat.add_le_add_left hless _) hle⟩
  | read room _ ih =>
    obtain ⟨ht, hle⟩ := ih
    obtain ⟨hu, hless⟩ := ht.read room
    refine ⟨hu, ?_⟩
    rw [Nat.add_assoc]
    exact Nat.le_trans (Nat.add_le_add_left hless _) hle
  | setTimeout milliseconds _ ih =>
    have hsame : ∀ t : ScriptedLine, (Line.setTimeout milliseconds t).2 = t := by
      intro t
      show (ScriptedLine.setTimeout milliseconds t).2 = t
      rw [ScriptedLine.setTimeout]
      split <;> rfl
    rwa [hsame]
  | idle _ ih => exact ih

end ScriptedLine
end MemsProbe
