/-
What exchanges are answered with when the ECU answers every command.

The promise is the ECU's (`AnsweringLine`): a command byte that is taken is
answered with its echo and a whole reply, and of all that is sent nothing
is lost, added or changed on the way. When it arrives is left open, so a
read may find the line silent anywhere, within a reply too.

Then what was read and what is still unread always make up what was sent
(`Passes`). An exchange that is answered took one echo and one reply off
the line, though not always its own: an exchange that times out leaves the
rest of its reply unread, and the next one goes on reading there. A line
that is `Prompt` never leaves anything.
-/
import MemsProbe.Proofs.Leads
import MemsProbe.Proofs.Operations

namespace MemsProbe

/-! ## The stream -/

namespace Wire

/-- A reply as it goes over the line, after the echo of its command. -/
def Reply.wire (r : Reply) : List UInt8 :=
  r.command :: r.bytes

/-- Replies one after the other. -/
def stream (replies : List Reply) : List UInt8 :=
  replies.flatMap Reply.wire

theorem stream_append (replies replies' : List Reply) :
    stream (replies ++ replies') = stream replies ++ stream replies' :=
  List.flatMap_append

/-- Commands fix the lengths of their replies, so a stream of replies to
known commands can be cut in one way only. -/
theorem stream_inj {replies replies' : List Reply} {rest rest' : List UInt8}
    (hc : replies.map (·.command) = replies'.map (·.command))
    (h : stream replies ++ rest = stream replies' ++ rest') : replies = replies' ∧ rest = rest' := by
  induction replies generalizing replies' with
  | nil =>
    obtain rfl : replies' = [] := by simpa using hc.symm
    exact ⟨rfl, h⟩
  | cons r replies ih =>
    cases replies' with
    | nil => cases hc
    | cons r' replies' =>
      obtain ⟨command, bytes, whole⟩ := r
      obtain ⟨command', bytes', whole'⟩ := r'
      simp only [List.map_cons, List.cons.injEq] at hc
      obtain ⟨rfl, hc⟩ := hc
      have hlen : bytes.length = bytes'.length := Option.some.inj (whole.symm.trans whole')
      simp only [stream, List.flatMap_cons, Reply.wire, List.cons_append, List.append_assoc, List.cons.injEq,
        true_and] at h
      obtain ⟨rfl, hrest⟩ := List.append_inj h hlen
      obtain ⟨rfl, rfl⟩ := ih hc hrest
      exact ⟨rfl, rfl⟩

end Wire

/-- A line with an ECU at its other end that answers every command byte
taken. -/
class AnsweringLine (σ : Type) extends Line σ where
  /-- The replies sent so far. -/
  sent : σ → List Wire.Reply
  /-- What has been sent and not been read yet. -/
  unread : σ → List UInt8
  /-- A command is answered if it is taken; it may be even if it is not said
  to be. -/
  write_sends {s s' : σ} {command : UInt8} {n : Nat} {taken : Except Failure Nat} :
    Wire.replyLength? command = some n → write [command] s = (taken, s') →
      (∃ r : Wire.Reply, r.command = command ∧ sent s' = sent s ++ [r] ∧ unread s' = unread s ++ r.wire) ∨
        taken ≠ .ok 1 ∧ sent s' = sent s ∧ unread s' = unread s
  /-- A read brings what has been unread longest. -/
  read_takes {s s' : σ} {room : Nat} {got : { got : List UInt8 // got.length ≤ room }} :
    read room s = (.ok got, s') → sent s' = sent s ∧ unread s = got.1 ++ unread s'
  /-- A fault takes nothing. -/
  read_fails {s s' : σ} {room : Nat} {e : Failure} :
    read room s = (.error e, s') → sent s' = sent s ∧ unread s' = unread s

namespace AnsweringLine

variable {σ : Type} [AnsweringLine σ] {s s' s'' : σ} {own own' : List Wire.Reply} {taken taken' : List UInt8}

/-- Between the two states the ECU sent some replies, and some bytes were
taken off the line. -/
structure Passes (own : List Wire.Reply) (taken : List UInt8) (s s' : σ) : Prop where
  sent_eq : sent s' = sent s ++ own
  unread_eq : unread s ++ Wire.stream own = taken ++ unread s'

theorem Passes.refl (s : σ) : Passes [] [] s s :=
  ⟨by simp, by simp [Wire.stream]⟩

theorem Passes.trans (h : Passes own taken s s') (h' : Passes own' taken' s' s'') :
    Passes (own ++ own') (taken ++ taken') s s'' := by
  refine ⟨by rw [h'.sent_eq, h.sent_eq, List.append_assoc], ?_⟩
  calc unread s ++ Wire.stream (own ++ own')
      = (unread s ++ Wire.stream own) ++ Wire.stream own' := by rw [Wire.stream_append, List.append_assoc]
    _ = taken ++ (unread s' ++ Wire.stream own') := by rw [h.unread_eq, List.append_assoc]
    _ = taken ++ taken' ++ unread s'' := by rw [h'.unread_eq, List.append_assoc]

theorem Passes.of_read {room : Nat} {got : { got : List UInt8 // got.length ≤ room }}
    (h : Line.read room s = (.ok got, s')) : Passes [] got.1 s s' := by
  obtain ⟨hs, hu⟩ := read_takes h
  exact ⟨by simpa using hs, by simpa [Wire.stream] using hu⟩

theorem Passes.of_fault {room : Nat} {e : Failure} (h : Line.read room s = (.error e, s')) :
    Passes [] [] s s' := by
  obtain ⟨hs, hu⟩ := read_fails h
  exact ⟨by simpa using hs, by simpa [Wire.stream] using hu.symm⟩

/-- From here on every command byte is taken, and a read finds something
whenever there is something unread. -/
def Prompt (s : σ) : Prop :=
  ∀ t, Line.Leads s t →
    (∀ command n, Wire.replyLength? command = some n → (Line.write [command] t).1 = .ok 1) ∧
      ∀ room, 0 < room → unread t ≠ [] → ∃ got, (Line.read room t).1 = .ok got ∧ got.1 ≠ []

theorem Prompt.leads (h : Prompt s) (hl : Line.Leads s s') : Prompt s' :=
  fun t ht => h t (hl.trans ht)

theorem Prompt.read {room : Nat} {answer} (h : Prompt s) (hr : Line.read room s = (answer, s')) :
    Prompt s' := by
  obtain rfl : (Line.read room s).2 = s' := by rw [hr]
  exact h.leads ((Line.Leads.refl s).read room)

theorem Prompt.write {offered : List UInt8} {taken} (h : Prompt s) (hw : Line.write offered s = (taken, s')) :
    Prompt s' := by
  obtain rfl : (Line.write offered s).2 = s' := by rw [hw]
  exact h.leads ((Line.Leads.refl s).write offered)

theorem Prompt.of_fault {room : Nat} {e : Failure} (h : Prompt s) (hroom : 0 < room)
    (hr : Line.read room s = (.error e, s')) : unread s = [] := by
  by_cases hu : unread s = []
  · exact hu
  · obtain ⟨got, hg, -⟩ := (h s (.refl s)).2 room hroom hu
    rw [hr] at hg
    cases hg

theorem Prompt.of_silence {room : Nat} {le} (h : Prompt s) (hroom : 0 < room)
    (hr : Line.read room s = (.ok ⟨[], le⟩, s')) : unread s = [] := by
  by_cases hu : unread s = []
  · exact hu
  · obtain ⟨got, hg, hne⟩ := (h s (.refl s)).2 room hroom hu
    rw [hr] at hg
    obtain rfl := Except.ok.inj hg
    exact absurd rfl hne

end AnsweringLine

/-! ## One exchange -/

namespace Link

open AnsweringLine

variable {σ : Type} [AnsweringLine σ] {l l' : Link σ}

theorem writeAll_passes {command : UInt8} {n : Nat} {answer} (hn : Wire.replyLength? command = some n)
    (h : l.writeAll [command] = (answer, l')) :
    ∃ own, Passes own [] l.line l'.line ∧
      (answer = .ok () → ∃ r : Wire.Reply, own = [r] ∧ r.command = command) ∧
      (∀ e, answer = .error e → ¬ Prompt l.line) ∧ (Prompt l.line → Prompt l'.line) := by
  obtain ⟨taken, hw, ht⟩ := writeAll_one h
  have hw := line_write hw
  have hfail : ∀ e, answer = .error e → ¬ Prompt l.line := by
    rintro e rfl hp
    have htaken := (hp _ (.refl _)).1 command n hn
    rw [hw] at htaken
    cases ht.2 htaken
  rcases write_sends hn hw with ⟨r, hr, hs, hu⟩ | ⟨hne, hs, hu⟩
  · have hpass : Passes [r] [] l.line l'.line := ⟨hs, by simpa [Wire.stream] using hu.symm⟩
    exact ⟨[r], hpass, fun _ => ⟨r, rfl, hr⟩, hfail, fun hp => hp.write hw⟩
  · have hpass : Passes [] [] l.line l'.line := ⟨by simpa using hs, by simpa [Wire.stream] using hu.symm⟩
    exact ⟨[], hpass, fun hok => absurd (ht.1 hok) hne, hfail, fun hp => hp.write hw⟩

theorem readOn_passes {command : UInt8} {awaited : Nat} {arrived : List UInt8}
    {fits : arrived.length ≤ awaited} {answer} (h : l.readOn command awaited arrived fits = (answer, l')) :
    ∃ read, Passes [] read l.line l'.line ∧ (∀ got, answer = .ok got → got.1 = arrived ++ read) ∧
      (∀ e, answer = .error e → Prompt l.line → arrived.length + (unread l.line).length < awaited) ∧
      (Prompt l.line → Prompt l'.line) := by
  fun_induction readOn command awaited arrived fits l with
  | case1 arrived fits l full =>
    obtain ⟨rfl, rfl⟩ := Prod.mk.inj h
    exact ⟨[], .refl _, by simp, by simp, fun hp => hp⟩
  | case2 arrived fits l short e l₁ hr =>
    obtain ⟨rfl, rfl⟩ := Prod.mk.inj h
    have hr := line_read hr
    refine ⟨[], .of_fault hr, by simp, fun _ _ hp => ?_, fun hp => hp.read hr⟩
    rw [hp.of_fault (by omega) hr, List.length_nil]
    omega
  | case3 arrived fits l short room l₁ hr =>
    obtain ⟨rfl, rfl⟩ := Prod.mk.inj h
    have hr := line_read hr
    refine ⟨[], .of_read hr, by simp, fun _ _ hp => ?_, fun hp => hp.read hr⟩
    rw [hp.of_silence (by omega) hr, List.length_nil]
    omega
  | case4 arrived fits l short b more room l₁ hr ih =>
    have hr := line_read hr
    obtain ⟨read, hpass, hok, herr, hprompt⟩ := ih h
    refine ⟨b :: more ++ read, (Passes.of_read hr).trans hpass, fun got hg => ?_, fun e he hp => ?_,
      fun hp => hprompt (hp.read hr)⟩
    · rw [hok got hg, List.append_assoc]
    · have hlt := herr e he (hp.read hr)
      obtain ⟨-, hu⟩ := read_takes hr
      rw [hu]
      simp only [List.length_append] at hlt ⊢
      omega

theorem readExactly_passes {command : UInt8} {awaited : Nat} {answer}
    (h : l.readExactly command awaited = (answer, l')) :
    ∃ read, Passes [] read l.line l'.line ∧ (∀ got, answer = .ok got → read = got.toList) ∧
      (∀ e, answer = .error e → Prompt l.line → (unread l.line).length < awaited) ∧
      (Prompt l.line → Prompt l'.line) := by
  unfold readExactly at h
  split at h
  next e l₁ hr =>
    obtain ⟨rfl, rfl⟩ := Prod.mk.inj h
    obtain ⟨read, hpass, -, herr, hprompt⟩ := readOn_passes hr
    exact ⟨read, hpass, by simp, fun _ _ hp => by simpa using herr e rfl hp, hprompt⟩
  next bytes hb l₁ hr =>
    obtain ⟨rfl, rfl⟩ := Prod.mk.inj h
    obtain ⟨read, hpass, hok, -, hprompt⟩ := readOn_passes hr
    refine ⟨read, hpass, fun got hg => ?_, by simp, hprompt⟩
    obtain rfl := Except.ok.inj hg
    simpa using (hok _ rfl).symm

theorem readEcho_passes {command : UInt8} {answer} (h : l.readEcho command = (answer, l')) :
    ∃ read, Passes [] read l.line l'.line ∧ (answer = .ok () → read = [command]) ∧
      (∀ e, answer = .error e → Prompt l.line → (unread l.line).head? ≠ some command) ∧
      (Prompt l.line → Prompt l'.line) := by
  unfold readEcho at h
  split at h
  next e l₁ hr =>
    obtain ⟨rfl, rfl⟩ := Prod.mk.inj h
    obtain ⟨read, hpass, -, herr, hprompt⟩ := readExactly_passes hr
    refine ⟨read, hpass, by simp, fun _ _ hp => ?_, hprompt⟩
    have hnone : (unread l.line).length = 0 := Nat.lt_one_iff.1 (herr e rfl hp)
    simp [List.eq_nil_of_length_eq_zero hnone]
  next echo l₁ hr =>
    obtain ⟨read, hpass, hok, -, hprompt⟩ := readExactly_passes hr
    have hread : read = [echo[0]] := (hok echo rfl).trans (toList_of_one echo Nat.one_pos)
    split at h
    next heq =>
      obtain ⟨rfl, rfl⟩ := Prod.mk.inj h
      exact ⟨read, hpass, fun _ => by rw [hread, heq], by simp, hprompt⟩
    next hne =>
      obtain ⟨rfl, rfl⟩ := Prod.mk.inj h
      refine ⟨read, hpass, by simp, fun _ _ _ hhead => hne ?_, hprompt⟩
      have hu : unread l.line = echo[0] :: unread l₁.line := by
        simpa [hread, Wire.stream] using hpass.unread_eq
      rw [hu] at hhead
      exact Option.some.inj hhead

/-- An answered exchange took one echo and one reply off the line. On a
prompt line with nothing unread every exchange is answered. -/
theorem exchange_passes {command : UInt8} {n : Nat} {answer} (hn : Wire.replyLength? command = some n)
    (h : l.exchange command n = (answer, l')) :
    ∃ own read, Passes own read l.line l'.line ∧
      (∀ reply, answer = .ok reply → own.map (·.command) = [command] ∧ read = command :: reply.toList) ∧
      (∀ e, answer = .error e → Prompt l.line → unread l.line ≠ []) ∧ (Prompt l.line → Prompt l'.line) := by
  unfold exchange at h
  split at h
  next e l₁ hw =>
    obtain ⟨rfl, rfl⟩ := Prod.mk.inj h
    obtain ⟨own, hpass, -, hfail, hprompt⟩ := writeAll_passes hn hw
    exact ⟨own, [], hpass, by simp, fun _ _ hp => absurd hp (hfail e rfl), hprompt⟩
  next l₁ hw =>
    obtain ⟨own, hsent, hone, -, hprompt₁⟩ := writeAll_passes hn hw
    obtain ⟨r, rfl, rfl⟩ := hone rfl
    have hline : unread l.line = [] → unread l₁.line = r.command :: r.bytes := fun hnone => by
      have hu := hsent.unread_eq
      rw [hnone] at hu
      simpa [Wire.stream, Wire.Reply.wire] using hu.symm
    split at h
    next e l₂ hr =>
      obtain ⟨rfl, rfl⟩ := Prod.mk.inj h
      obtain ⟨read, hpass, -, herr, hprompt₂⟩ := readEcho_passes hr
      refine ⟨_, _, hsent.trans hpass, by simp, fun _ _ hp hnone => ?_, fun hp => hprompt₂ (hprompt₁ hp)⟩
      refine herr e rfl (hprompt₁ hp) ?_
      rw [hline hnone]
      rfl
    next l₂ hr =>
      obtain ⟨read, hpass, hok, -, hprompt₂⟩ := readEcho_passes hr
      obtain ⟨read', hpass', hok', herr, hprompt₃⟩ := readExactly_passes h
      obtain rfl := hok rfl
      refine ⟨_, _, (hsent.trans hpass).trans hpass', fun reply hreply => ⟨rfl, ?_⟩, fun e he hp hnone => ?_,
        fun hp => hprompt₃ (hprompt₂ (hprompt₁ hp))⟩
      · rw [hok' reply hreply]
        rfl
      · have hrest : r.bytes = unread l₂.line := by
          have hu := hpass.unread_eq
          rw [hline hnone] at hu
          simpa [Wire.stream] using hu
        have hlen : r.bytes.length = n := Option.some.inj (r.whole.symm.trans hn)
        have hlt := herr e he (hprompt₂ (hprompt₁ hp))
        rw [← hrest, hlen] at hlt
        exact absurd hlt (Nat.lt_irrefl n)

end Link
end MemsProbe
