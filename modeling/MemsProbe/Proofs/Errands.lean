/-
Errands: what a client can be told to do, which is to perform an operation
or to disconnect.

A client pursues scripts of exchanges, so two clients over different lines
answer alike as soon as their exchanges do. `Link.Simulates` is what has to
be shown of a relation between links for that, and `attendAll_agrees` is
what follows: clients whose links are related answer all errands alike, and
their links stay related.
-/
import MemsProbe.Proofs.Operations

namespace MemsProbe

inductive Errand where
  | perform (op : Operation)
  | disconnect
  deriving DecidableEq

/-! ## Answers -/

theorem Operation.Reads.unique {op : Operation} {replies : List (List UInt8)} {found found' : Finding}
    (h : op.Reads replies found) (h' : op.Reads replies found') : found = found' := by
  cases h <;> generalize hb : List.cons _ _ = bytes at h' <;> cases h' <;> simp_all [Vector.toList_inj]

theorem Client.Tells.unique {op : Operation} {outcome : Pursued} {answer answer' : Except Failure Finding}
    (h : Tells op outcome answer) (h' : Tells op outcome answer') : answer = answer' := by
  cases outcome with
  | error failed => exact h.trans h'.symm
  | ok replies =>
    obtain ⟨found, rfl, hy⟩ := h
    obtain ⟨found', rfl, hy'⟩ := h'
    rw [hy.2.unique hy'.2]

/-! ## Exchanges that cannot be told apart -/

/-- From related states the two come to the same, and leave the states
related. -/
def Agree {α β γ : Type} (R : α → β → Prop) (run : α → γ × α) (run' : β → γ × β) : Prop :=
  ∀ ⦃a b⦄, R a b → ∃ answer a' b', run a = (answer, a') ∧ run' b = (answer, b') ∧ R a' b'

section

variable {σ τ : Type} [Line σ] [Line τ] {R : Link σ → Link τ → Prop}

/-- Exchanges agree on related links, and notes do not matter. -/
structure Link.Simulates (R : Link σ → Link τ → Prop) : Prop where
  exchange (command : UInt8) (n : Nat) : Agree R (Link.exchange command n) (Link.exchange command n)
  alike {l l' : Link σ} {m m' : Link τ} : R l m → l'.line = l.line → l'.calls = l.calls →
    m'.line = m.line → m'.calls = m.calls → R l' m'

namespace Agree

theorem writeAll {offered : List UInt8} (h : Agree R (Link.write offered) (Link.write offered)) :
    Agree R (Link.writeAll offered) (Link.writeAll offered) := by
  intro l m hR
  obtain ⟨taken, l', m', hl, hm, hR⟩ := h hR
  simp only [Link.writeAll, hl, hm]
  cases taken with
  | error e => exact ⟨_, _, _, rfl, rfl, hR⟩
  | ok taken =>
    by_cases hall : taken = offered.length
    · simp only [hall, if_true]
      exact ⟨_, _, _, rfl, rfl, hR⟩
    · simp only [hall, if_false]
      exact ⟨_, _, _, rfl, rfl, hR⟩

/-- Reads that agree one by one agree when they go on. -/
theorem readOn {command : UInt8} {awaited : Nat} (h : ∀ room, Agree R (Link.read room) (Link.read room))
    (arrived : List UInt8) (fits : arrived.length ≤ awaited) :
    Agree R (Link.readOn command awaited arrived fits) (Link.readOn command awaited arrived fits) := by
  intro l m hR
  fun_induction Link.readOn command awaited arrived fits l generalizing m with
  | case1 arrived fits l full =>
    have hm : Link.readOn command awaited arrived fits m = (.ok ⟨arrived, full⟩, m) := by
      rw [Link.readOn, dif_pos full]
    exact ⟨_, _, _, rfl, hm, hR⟩
  | case2 arrived fits l short e l₁ hr =>
    obtain ⟨answer, l', m', hl, hm, hR'⟩ := h (awaited - arrived.length) hR
    obtain ⟨rfl, rfl⟩ := Prod.mk.inj (hr.symm.trans hl)
    have hm : Link.readOn command awaited arrived fits m = (.error e, m') := by
      rw [Link.readOn, dif_neg short, hm]
    exact ⟨_, _, _, rfl, hm, hR'⟩
  | case3 arrived fits l short room l₁ hr =>
    obtain ⟨answer, l', m', hl, hm, hR'⟩ := h (awaited - arrived.length) hR
    obtain ⟨rfl, rfl⟩ := Prod.mk.inj (hr.symm.trans hl)
    have hm : Link.readOn command awaited arrived fits m =
        (.error (.silence command arrived.length awaited), m') := by
      rw [Link.readOn, dif_neg short, hm]
    exact ⟨_, _, _, rfl, hm, hR'⟩
  | case4 arrived fits l short b more room l₁ hr ih =>
    obtain ⟨answer, l', m', hl, hm, hR'⟩ := h (awaited - arrived.length) hR
    obtain ⟨rfl, rfl⟩ := Prod.mk.inj (hr.symm.trans hl)
    obtain ⟨came, l₂, m₂, hl₂, hm₂, hR₂⟩ := ih hR'
    have hm : Link.readOn command awaited arrived fits m = (came, m₂) := by
      rw [Link.readOn, dif_neg short, hm]
      exact hm₂
    exact ⟨came, l₂, m₂, hl₂, hm, hR₂⟩

theorem readExactly {command : UInt8} {awaited : Nat}
    (h : Agree R (Link.readOn command awaited [] (Nat.zero_le _)) (Link.readOn command awaited [] (Nat.zero_le _))) :
    Agree R (Link.readExactly command awaited) (Link.readExactly command awaited) := by
  intro l m hR
  obtain ⟨answer, l', m', hl, hm, hR⟩ := h hR
  simp only [Link.readExactly, hl, hm]
  cases answer <;> exact ⟨_, _, _, rfl, rfl, hR⟩

theorem readEcho {command : UInt8} (h : Agree R (Link.readExactly command 1) (Link.readExactly command 1)) :
    Agree R (Link.readEcho command) (Link.readEcho command) := by
  intro l m hR
  obtain ⟨answer, l', m', hl, hm, hR⟩ := h hR
  simp only [Link.readEcho, hl, hm]
  cases answer with
  | error e => exact ⟨_, _, _, rfl, rfl, hR⟩
  | ok echo =>
    by_cases hecho : echo[0] = command
    · simp only [hecho, if_true]
      exact ⟨_, _, _, rfl, rfl, hR⟩
    · simp only [hecho, if_false]
      exact ⟨_, _, _, rfl, rfl, hR⟩

/-- An exchange is made of a write of one byte and of reading on. -/
theorem exchange {command : UInt8} (hwrite : Agree R (Link.write [command]) (Link.write [command]))
    (hread : ∀ awaited, Agree R (Link.readOn command awaited [] (Nat.zero_le _))
      (Link.readOn command awaited [] (Nat.zero_le _))) (n : Nat) :
    Agree R (Link.exchange command n) (Link.exchange command n) := by
  intro l m hR
  obtain ⟨sent, l₁, m₁, hl₁, hm₁, hR⟩ := hwrite.writeAll hR
  simp only [Link.exchange, hl₁, hm₁]
  cases sent with
  | error e => exact ⟨_, _, _, rfl, rfl, hR⟩
  | ok _ =>
    obtain ⟨echoed, l₂, m₂, hl₂, hm₂, hR⟩ := (hread 1).readExactly.readEcho hR
    simp only [hl₂, hm₂]
    cases echoed with
    | error e => exact ⟨_, _, _, rfl, rfl, hR⟩
    | ok _ => exact (hread n).readExactly hR

end Agree

end

/-! ## Clients that cannot be told apart -/

namespace Client

/-- The links are related, and both clients are connected or neither is. -/
structure Twins {σ τ : Type} (R : Link σ → Link τ → Prop) (c : Client σ) (d : Client τ) : Prop where
  links : R c.link d.link
  connected : c.connected = d.connected

section

variable {σ : Type} [Line σ]

/-- What comes of an errand; disconnecting finds nothing out. -/
def attend : Errand → Client σ → Except Failure (Option Finding) × Client σ
  | .perform op, c =>
    match c.perform op with
    | (answer, c) => (answer.map some, c)
  | .disconnect, c => (.ok none, c.disconnect)

/-- What comes of errands one after the other, and the client after them. -/
def attendAll : List Errand → Client σ → List (Except Failure (Option Finding)) × Client σ
  | [], c => ([], c)
  | e :: es, c =>
    match c.attend e with
    | (answer, c) => (answer :: (attendAll es c).1, (attendAll es c).2)

end

variable {σ τ : Type} [Line σ] [Line τ] {R : Link σ → Link τ → Prop} {c c' : Client σ} {d d' : Client τ}

theorem Twins.alike (hR : Link.Simulates R) (h : Twins R c d) (hc : Alike c c') (hd : Alike d d') :
    Twins R c' d' := by
  refine ⟨hR.alike h.links hc.line hc.calls hd.line hd.calls, ?_⟩
  rw [hc.connected, hd.connected, h.connected]

theorem exchange_agrees (hR : Link.Simulates R) (command : UInt8) (n : Nat) :
    Agree (Twins R) (Client.exchange command n) (Client.exchange command n) := by
  intro c d h
  simp only [Client.exchange, h.connected]
  by_cases hd : d.connected = true
  · obtain ⟨answer, l, m, hl, hm, hlinks⟩ := hR.exchange command n h.links
    simp only [hd, if_true, hl, hm]
    exact ⟨_, _, _, rfl, rfl, hlinks, rfl⟩
  · simp only [hd]
    exact ⟨_, _, _, rfl, rfl, h⟩

/-- A script comes to the same over both links. -/
theorem Pursues.twins {script : List Wire.Request} {outcome outcome' : Pursued} (hR : Link.Simulates R)
    (h : Pursues script c outcome c') (h' : Pursues script d outcome' d') (ht : Twins R c d) :
    outcome = outcome' ∧ Twins R c' d' := by
  induction h generalizing d outcome' with
  | done c =>
    cases h'
    exact ⟨rfl, ht⟩
  | @failed e script r c c₁ c' he ha =>
    obtain ⟨answer, c₂, d₂, hc, hd, ht⟩ := exchange_agrees hR r.command r.length ht
    obtain ⟨rfl, rfl⟩ := Prod.mk.inj (he.symm.trans hc)
    cases h' with
    | failed he' ha' =>
      obtain ⟨heq, rfl⟩ := Prod.mk.inj (he'.symm.trans hd)
      obtain rfl := Except.error.inj heq
      exact ⟨rfl, ht.alike hR ha ha'⟩
    | next he' _ _ => cases he'.symm.trans hd
  | @next script r bytes outcome c c₁ c₂ c' he ha _ ih =>
    obtain ⟨answer, c₃, d₃, hc, hd, ht⟩ := exchange_agrees hR r.command r.length ht
    obtain ⟨rfl, rfl⟩ := Prod.mk.inj (he.symm.trans hc)
    cases h' with
    | failed he' _ => cases he'.symm.trans hd
    | next he' ha' hrest' =>
      obtain ⟨heq, rfl⟩ := Prod.mk.inj (he'.symm.trans hd)
      obtain rfl := Except.ok.inj heq
      obtain ⟨rfl, hafter⟩ := ih hrest' (ht.alike hR ha ha')
      exact ⟨rfl, hafter⟩

theorem perform_agrees (hR : Link.Simulates R) (op : Operation) :
    Agree (Twins R) (Client.perform op) (Client.perform op) := by
  intro c d h
  obtain ⟨outcome, hp, ht⟩ := perform_pursues (Prod.eta (c.perform op)).symm
  obtain ⟨outcome', hp', ht'⟩ := perform_pursues (Prod.eta (d.perform op)).symm
  obtain ⟨rfl, hafter⟩ := hp.twins hR hp' h
  exact ⟨(c.perform op).1, _, _, rfl, by rw [ht.unique ht'], hafter⟩

theorem attend_agrees (hR : Link.Simulates R) (e : Errand) :
    Agree (Twins R) (Client.attend e) (Client.attend e) := by
  intro c d h
  cases e with
  | perform op =>
    obtain ⟨answer, c', d', hc, hd, h⟩ := perform_agrees hR op h
    simp only [attend, hc, hd]
    exact ⟨_, _, _, rfl, rfl, h⟩
  | disconnect =>
    refine ⟨_, _, _, rfl, rfl, ?_⟩
    simp only [Client.disconnect, h.connected]
    by_cases hd : d.connected = true
    · simp only [hd, if_true]
      exact ⟨hR.alike h.links rfl rfl rfl rfl, rfl⟩
    · simp only [hd]
      exact h

/-- Clients that exchanges cannot tell apart answer all errands alike. -/
theorem attendAll_agrees (hR : Link.Simulates R) (es : List Errand) :
    Agree (Twins R) (Client.attendAll es) (Client.attendAll es) := by
  induction es with
  | nil => exact fun c d h => ⟨_, _, _, rfl, rfl, h⟩
  | cons e es ih =>
    intro c d h
    obtain ⟨answer, c₁, d₁, hc₁, hd₁, h₁⟩ := attend_agrees hR e h
    obtain ⟨answers, c₂, d₂, hc₂, hd₂, h₂⟩ := ih h₁
    simp only [attendAll, hc₁, hd₁, hc₂, hd₂]
    exact ⟨_, _, _, rfl, rfl, h₂⟩

end Client
end MemsProbe
