/-
Replies never leak from one command of the console into the next.

What a session hears is cut into replies, each ended by its first silence
or fault (`cut`). `session_replies` says that the cuts fall just where the
exchanges of the session end, as long as the user does not ask to stop: an
exchange whose byte was taken hears one reply, all of it, and keeps as much
of its beginning as there is room for; one whose byte was not taken hears
nothing and keeps nothing. How much room there is changes nothing on the
line.

All of it rests on `exchange_inquires`: the console asks the line as
`Line.inquire` does, and that function knows of no buffer.
-/
import Mathlib.Data.List.Forall2
import MemsProbe.Proofs.Listening

namespace MemsProbe

/-- What the reads among calls came to. -/
def heardIn (calls : List Call) : List Heard :=
  calls.filterMap fun
    | .read _ h => some h
    | _ => none

/-- The calls made on the way from one link to another. -/
def Link.callsUntil {σ : Type} (l l' : Link σ) : List Call :=
  l'.calls.toList.drop l.calls.size

theorem Link.callsUntil_eq {σ : Type} {l l' : Link σ} {calls : List Call}
    (h : l'.calls.toList = l.calls.toList ++ calls) : l.callsUntil l' = calls := by
  simp [callsUntil, h]

/-- Cuts what was heard into replies after each silence and each fault; the
rest is a reply that has not ended. -/
def cut : List Heard → List (List Heard) × List Heard
  | [] => ([], [])
  | h :: hs =>
    if endsReply h then ([h] :: (cut hs).1, (cut hs).2)
    else
      match cut hs with
      | ([], rest) => ([], h :: rest)
      | (reply :: replies, rest) => ((h :: reply) :: replies, rest)

theorem cut_append {reply : List Heard} (hr : IsReply reply) (hs : List Heard) :
    cut (reply ++ hs) = (reply :: (cut hs).1, (cut hs).2) := by
  obtain ⟨bytes, stop, rfl, hu, he⟩ := hr
  induction bytes with
  | nil => simp [cut, he]
  | cons h bytes ih =>
    obtain ⟨b, more, rfl⟩ := hu h (by simp)
    have ih := ih fun h hm => hu h (by simp [hm])
    simp only [List.cons_append, cut, endsReply, ih]
    rfl

theorem cut_flatten {replies : List (List Heard)} (h : ∀ r ∈ replies, IsReply r) :
    cut replies.flatten = (replies, []) := by
  induction replies with
  | nil => rfl
  | cons r replies ih =>
    rw [List.flatten_cons, cut_append (h r (by simp)), ih fun r hm => h r (by simp [hm])]

/-! ## Asking the line -/

/-- A byte offered, and what came of it. -/
structure Inquiry (σ : Type) where
  taken : Except Failure Nat
  heard : List Heard
  line : σ

/-- The calls of an inquiry with the given byte. -/
def Inquiry.calls {σ : Type} (b : UInt8) (i : Inquiry σ) : List Call :=
  .write [b] i.taken :: i.heard.map (.read 1)

/-- Offers a byte and, if it is taken, listens to the reply. -/
def Line.inquire {σ : Type} [Line σ] (rounds : Nat) (b : UInt8) (s : σ) : Inquiry σ :=
  match Line.write [b] s with
  | (.ok 1, s) => ⟨.ok 1, (listen rounds s).1, (listen rounds s).2⟩
  | (taken, s) => ⟨taken, [], s⟩

theorem heardIn_calls {σ : Type} (b : UInt8) (i : Inquiry σ) : heardIn (i.calls b) = i.heard := by
  have hreads : ∀ hs : List Heard, heardIn (hs.map (Call.read 1)) = hs := fun hs => by
    induction hs with
    | nil => rfl
    | cons _ _ ih => simp [heardIn]
  exact hreads i.heard

theorem Line.inquire_taken {σ : Type} [Line σ] {rounds : Nat} {b : UInt8} {s s' : σ}
    (h : Line.write [b] s = (.ok 1, s')) :
    Line.inquire rounds b s = ⟨.ok 1, (listen rounds s').1, (listen rounds s').2⟩ := by
  simp [inquire, h]

theorem Line.inquire_not_taken {σ : Type} [Line σ] {rounds : Nat} {b : UInt8} {s s' : σ} {taken}
    (h : Line.write [b] s = (taken, s')) (ht : taken ≠ .ok 1) :
    Line.inquire rounds b s = ⟨taken, [], s'⟩ := by
  simp only [inquire, h]

theorem Line.NeverStops.inquire {σ : Type} [Line σ] {s : σ} (h : NeverStops s) (rounds : Nat) (b : UInt8) :
    NeverStops (Line.inquire rounds b s).line := by
  have hw := h.write (Prod.eta (Line.write [b] s)).symm
  by_cases ht : (Line.write [b] s).1 = .ok 1
  · rw [inquire_taken (show Line.write [b] s = (.ok 1, (Line.write [b] s).2) by rw [← ht])]
    exact hw.listen rounds
  · rw [inquire_not_taken (Prod.eta _).symm ht]
    exact hw

namespace Console

variable {σ : Type} [Line σ] {c c' : Console σ} {rounds : Nat} {b : UInt8}

/-- An exchange asks the line, and keeps what fits of the reply. -/
theorem exchange_inquires {answer} (h : c.exchange rounds b = (answer, c')) :
    let i := Line.inquire rounds b c.link.line
    c'.link.line = i.line ∧ c'.link.calls.toList = c.link.calls.toList ++ i.calls b ∧
      c'.response.capacity = c.response.capacity ∧
      c'.response.bytes.toList = (delivered i.heard).take c.response.capacity ∧
      (i.taken = .ok 1 → Line.NeverStops c.link.line → answer ≠ .unfinished → IsReply i.heard) ∧
      (i.taken ≠ .ok 1 → i.heard = []) := by
  unfold exchange at h
  split at h
  next e c₁ hs =>
    obtain ⟨rfl, rfl⟩ := Prod.mk.inj h
    obtain ⟨taken, l', hw, hline, hcalls, hr, -, ht⟩ := send_writes hs
    have ht : taken ≠ .ok 1 := fun h => nomatch ht.2 h
    rw [Line.inquire_not_taken (Link.line_write hw) ht, hr]
    refine ⟨hline, ?_, rfl, by simp [ResponseBuffer.clear, delivered], fun h => absurd h ht, fun _ => rfl⟩
    rw [hcalls, Link.write_calls hw]
    rfl
  next c₁ hs =>
    obtain ⟨taken, l', hw, hline, hcalls, hr, -, ht⟩ := send_writes hs
    obtain rfl := ht.1 rfl
    obtain ⟨hs', ⟨hlisten, hcalls'⟩, ⟨hcap, hbytes⟩, -, hreply⟩ := drain_listens h
    rw [hline] at hlisten hreply
    rw [hr] at hcap hbytes
    rw [Line.inquire_taken (Link.line_write hw), hlisten]
    refine ⟨rfl, ?_, hcap, by simpa [ResponseBuffer.clear] using hbytes, fun _ hn => ?_, fun h => absurd rfl h⟩
    · rw [hcalls', hcalls, Link.write_calls hw, List.append_assoc]
      rfl
    · exact hreply (hn.write (Link.line_write hw))

/-! ## A session of exchanges -/

/-- What one exchange of a session did. -/
structure Exchanged where
  command : UInt8
  calls : List Call
  answer : Outcome Nat
  /-- The reply as the console has it afterwards. -/
  response : List UInt8

/-- What the exchange heard. -/
def Exchanged.heard (e : Exchanged) : List Heard :=
  heardIn e.calls

/-- Whether the byte that the exchange offered was taken. -/
def Exchanged.wasTaken (e : Exchanged) : Bool :=
  e.calls.any fun
    | .write _ (.ok 1) => true
    | _ => false

/-- Exchanges one after the other, and the console after them. -/
def session (rounds : Nat) : List UInt8 → Console σ → List Exchanged × Console σ
  | [], c => ([], c)
  | b :: bytes, c =>
    match c.exchange rounds b with
    | (answer, c') =>
      (⟨b, c.link.callsUntil c'.link, answer, c'.response.bytes.toList⟩ :: (session rounds bytes c').1,
        (session rounds bytes c').2)

theorem heardIn_append (calls calls' : List Call) : heardIn (calls ++ calls') = heardIn calls ++ heardIn calls' :=
  List.filterMap_append

omit [Line σ] in
theorem wasTaken_iff {e : Exchanged} {i : Inquiry σ} (h : e.calls = i.calls b) :
    e.wasTaken = true ↔ i.taken = .ok 1 := by
  rw [Exchanged.wasTaken, h, Inquiry.calls, List.any_cons, Bool.or_eq_true]
  constructor
  · rintro (ht | hr)
    · split at ht
      next heq => exact (Call.write.inj heq).2
      next => cases ht
    · simp at hr
  · intro ht
    simp [ht]

/-- What an exchange of a console of the given capacity should have done:
offered its byte and then only read, heard one whole reply if the byte was
taken and nothing if it was not, and kept as much of the beginning as there
is room for. -/
structure Exchanged.Fair (capacity : Nat) (e : Exchanged) : Prop where
  calls : ∃ taken, e.calls = .write [e.command] taken :: e.heard.map (.read 1)
  reply : e.wasTaken = true → IsReply e.heard
  nothing : e.wasTaken = false → e.heard = []
  response : e.response = (delivered e.heard).take capacity

theorem exchange_fair {answer} (h : c.exchange rounds b = (answer, c')) (hn : Line.NeverStops c.link.line)
    (he : answer ≠ .unfinished) :
    Exchanged.Fair c.response.capacity ⟨b, c.link.callsUntil c'.link, answer, c'.response.bytes.toList⟩ := by
  obtain ⟨-, hcalls, -, hbytes, hreply, hnone⟩ := exchange_inquires h
  have hcalls := Link.callsUntil_eq hcalls
  generalize Line.inquire rounds b c.link.line = i at *
  rw [hcalls]
  generalize he' : (⟨b, _, answer, _⟩ : Exchanged) = e
  have hcalls : e.calls = i.calls b := by rw [← he']
  have hheard : e.heard = i.heard := by rw [Exchanged.heard, hcalls, heardIn_calls]
  refine ⟨⟨i.taken, ?_⟩, fun ht => ?_, fun ht => ?_, ?_⟩
  · rw [hcalls, hheard, ← he']
    rfl
  · rw [hheard]
    exact hreply ((wasTaken_iff hcalls).1 ht) hn he
  · rw [hheard]
    refine hnone fun hk => ?_
    rw [(wasTaken_iff hcalls).2 hk] at ht
    cases ht
  · rw [hheard, ← hbytes, ← he']

theorem session_fair {bytes : List UInt8} (hn : Line.NeverStops c.link.line)
    (he : ∀ e ∈ (session rounds bytes c).1, e.answer ≠ .unfinished) :
    ∀ e ∈ (session rounds bytes c).1, e.Fair c.response.capacity := by
  induction bytes generalizing c with
  | nil => simp [session]
  | cons b bytes ih =>
    have hex := (Prod.eta (c.exchange rounds b)).symm
    obtain ⟨hline, -, hcap, -⟩ := exchange_inquires hex
    simp only [session, List.forall_mem_cons] at he ⊢
    refine ⟨exchange_fair hex hn he.1, ?_⟩
    rw [← hcap]
    exact ih (hline ▸ hn.inquire rounds b) he.2

/-- The calls of a session are those of its exchanges. -/
theorem session_calls (rounds : Nat) (bytes : List UInt8) (c : Console σ) :
    (session rounds bytes c).2.link.calls.toList =
      c.link.calls.toList ++ (session rounds bytes c).1.flatMap (·.calls) := by
  induction bytes generalizing c with
  | nil => simp [session]
  | cons b bytes ih =>
    obtain ⟨-, hcalls, -⟩ := exchange_inquires (Prod.eta (c.exchange rounds b)).symm
    simp only [session, List.flatMap_cons]
    rw [ih, Link.callsUntil_eq hcalls, hcalls, List.append_assoc]

/-- More room for replies changes no call, and only lengthens what is kept. -/
theorem session_roomier {c₂ : Console σ} (bytes : List UInt8) (hl : c₂.link.line = c.link.line)
    (hc : c.response.capacity ≤ c₂.response.capacity) :
    (session rounds bytes c₂).1.map (·.calls) = (session rounds bytes c).1.map (·.calls) ∧
      List.Forall₂ (fun e e₂ : Exchanged => e.response <+: e₂.response)
        (session rounds bytes c).1 (session rounds bytes c₂).1 := by
  induction bytes generalizing c c₂ with
  | nil => simp [session]
  | cons b bytes ih =>
    obtain ⟨hline, hcalls, hcap, hbytes, -⟩ := exchange_inquires (Prod.eta (c.exchange rounds b)).symm
    obtain ⟨hline₂, hcalls₂, hcap₂, hbytes₂, -⟩ := exchange_inquires (Prod.eta (c₂.exchange rounds b)).symm
    rw [hl] at hline₂ hcalls₂ hbytes₂
    obtain ⟨hmap, hpre⟩ := ih (hline₂.trans hline.symm) (by rw [hcap, hcap₂]; exact hc)
    simp only [session, List.map_cons, List.forall₂_cons]
    refine ⟨?_, ?_, hpre⟩
    · rw [hmap, Link.callsUntil_eq hcalls, Link.callsUntil_eq hcalls₂]
    · rw [hbytes, hbytes₂]
      exact List.take_prefix_take_left hc

theorem flatMap_heard {log : List Exchanged} (h : ∀ e ∈ log, e.wasTaken = false → e.heard = []) :
    heardIn (log.flatMap (·.calls)) = ((log.filter (·.wasTaken)).map (·.heard)).flatten := by
  induction log with
  | nil => rfl
  | cons e log ih =>
    have ih := ih fun e hm => h e (by simp [hm])
    rw [List.flatMap_cons, heardIn_append, ih]
    by_cases ht : e.wasTaken = true
    · simp [ht, Exchanged.heard]
    · have hnone := h e (by simp) (by simpa using ht)
      rw [Exchanged.heard] at hnone
      simp [ht, hnone]

/-- **Replies stay with their commands.** In a session that the user does
not ask to stop, every exchange offers its byte and then only reads, and what
is heard falls into replies just as the exchanges whose byte was taken divide
it, one reply each and nothing over. Each keeps the beginning of its own
reply, as far as there is room; the others hear nothing and keep nothing. A
console with more room makes the same calls, and keeps at least as much of
each reply. -/
theorem session_replies (rounds : Nat) (bytes : List UInt8) (c : Console σ)
    (never : Line.NeverStops c.link.line)
    (ended : ∀ e ∈ (session rounds bytes c).1, e.answer ≠ .unfinished) :
    (∀ e ∈ (session rounds bytes c).1, ∃ taken, e.calls = .write [e.command] taken :: e.heard.map (.read 1)) ∧
      cut (heardIn (c.link.callsUntil (session rounds bytes c).2.link)) =
        (((session rounds bytes c).1.filter (·.wasTaken)).map (·.heard), []) ∧
      (∀ e ∈ (session rounds bytes c).1, e.wasTaken = true →
        e.response = (delivered e.heard).take c.response.capacity) ∧
      (∀ e ∈ (session rounds bytes c).1, e.wasTaken = false → e.heard = [] ∧ e.response = []) ∧
      ∀ c₂ : Console σ, c₂.link.line = c.link.line → c.response.capacity ≤ c₂.response.capacity →
        (session rounds bytes c₂).1.map (·.calls) = (session rounds bytes c).1.map (·.calls) ∧
          List.Forall₂ (fun e e₂ : Exchanged => e.response <+: e₂.response)
            (session rounds bytes c).1 (session rounds bytes c₂).1 := by
  have hfair := session_fair never ended
  refine ⟨fun e he => (hfair e he).calls, ?_, fun e he _ => (hfair e he).response, fun e he ht => ?_,
    fun c₂ => session_roomier bytes⟩
  · rw [Link.callsUntil_eq (session_calls rounds bytes c), flatMap_heard fun e he => (hfair e he).nothing]
    refine cut_flatten fun reply hr => ?_
    obtain ⟨e, he, rfl⟩ := List.mem_map.1 hr
    obtain ⟨he, ht⟩ := List.mem_filter.1 he
    exact (hfair e he).reply ht
  · have hnone := (hfair e he).nothing ht
    refine ⟨hnone, ?_⟩
    rw [(hfair e he).response, hnone]
    exact List.take_nil

/-- A console with room for two bytes; the ECU answers the first byte with
three, the second is not taken, and the third is answered with a fault. -/
def overflowing : Console ScriptedLine where
  link :=
    { line :=
        { replies := fun b =>
            if b = 0x10 then [[.piece [0x10, 1, 2]]] else [[.piece [b], .fault (.io "unplugged")]]
          writeAnswers := [.all, .count 0] } }
  policy := .strict
  response := ⟨#[], 2, Nat.zero_le _⟩

/-- The same with room for eight bytes. -/
def roomy : Console ScriptedLine :=
  { overflowing with response := ⟨#[], 8, Nat.zero_le _⟩ }

theorem overflowing_replies :
    cut (heardIn (overflowing.link.callsUntil (session 8 [0x10, 0x11, 0x12] overflowing).2.link)) =
        ([[.ok [0x10], .ok [1], .ok [2], .ok []], [.ok [0x12], .error (.io "unplugged")]], []) ∧
      (session 8 [0x10, 0x11, 0x12] overflowing).1.map (·.response) = [[0x10, 1], [], [0x12]] ∧
      (session 8 [0x10, 0x11, 0x12] roomy).1.map (·.calls) =
        (session 8 [0x10, 0x11, 0x12] overflowing).1.map (·.calls) := by
  have never : Line.NeverStops overflowing.link.line := ScriptedLine.Unstopped.neverStops ⟨rfl, rfl, rfl⟩
  obtain ⟨-, hcut, -, -, hroomier⟩ := session_replies 8 [0x10, 0x11, 0x12] overflowing never (by decide)
  exact ⟨hcut.trans rfl, by decide, (hroomier roomy rfl (by decide)).1⟩

end Console
end MemsProbe
