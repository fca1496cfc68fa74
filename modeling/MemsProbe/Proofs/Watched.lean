/-
A line with an onlooker.

The record of a link says which calls were made, and not when the user asked
to stop. A watched line has that on record as well: it is any other line
with a log beside it, which holds each call together with whether the user
had asked by the end of it. The wish to stop is one that is never taken
back. It may be there from the start, come with any call, or come while a
line of input is awaited; nothing more is supposed of the line within.

`Link.Logs` is the view of a log that proofs take, what was added to it on
the way from one link to another. A script of exchanges adds one turn
(`Pursues.turn`), and listening to a reply ends as soon as the user asks
(`listen_obedient`).
-/
import MemsProbe.Proofs.Listening
import MemsProbe.Proofs.Operations

namespace MemsProbe

/-- A call, and whether the user had asked to stop by the end of it. -/
structure Entry where
  call : Call
  asked : Bool

/-- What a call offered, if it is a write. -/
def Call.offer? : Call → Option (List UInt8)
  | .write offered _ => some offered
  | _ => none

/-- Whether a call is one that the line sees. -/
def Call.reachesLine : Call → Bool
  | .pause _ => false
  | _ => true

/-- What was offered, one item for each write. -/
def offers (log : List Entry) : List (List UInt8) :=
  log.filterMap (·.call.offer?)

theorem offers_append (log log' : List Entry) : offers (log ++ log') = offers log ++ offers log' :=
  List.filterMap_append

/-- A line with a log of what is done over it. -/
structure Watched (σ : Type) where
  line : σ
  /-- Whether the user has ever asked to stop. -/
  asked : Bool := false
  log : List Entry := []

namespace Watched

variable {σ : Type}

section

variable [Line σ]

/-- Enters a call that left the line in the given state. -/
def enter (w : Watched σ) (call : Call) (line : σ) : Watched σ where
  line := line
  asked := w.asked || Line.cancelled line
  log := w.log ++ [⟨call, w.asked || Line.cancelled line⟩]

end

/-- The log from one state of the line to another: the entries made, of which
none knows of a wish to stop that the second state has forgotten. -/
structure Logs (w : Watched σ) (more : List Entry) (w' : Watched σ) : Prop where
  log : w'.log = w.log ++ more
  still : w.asked = true → w'.asked = true
  known : ∀ e ∈ more, e.asked = true → w'.asked = true

variable {w w' w'' : Watched σ} {more more' : List Entry}

theorem Logs.refl (w : Watched σ) : Logs w [] w :=
  ⟨by simp, id, by simp⟩

theorem Logs.trans (h : Logs w more w') (h' : Logs w' more' w'') : Logs w (more ++ more') w'' := by
  refine ⟨by rw [h'.log, h.log, List.append_assoc], fun hw => h'.still (h.still hw), fun e he hasked => ?_⟩
  rcases List.mem_append.1 he with he | he
  · exact h'.still (h.known e he hasked)
  · exact h'.known e he hasked

/-- As long as the user has not asked, no entry says so. -/
theorem Logs.quiet (h : Logs w more w') (hw : ¬ w'.asked = true) : ∀ e ∈ more, e.asked = false := by
  intro e he
  exact Bool.eq_false_iff.2 fun hasked => hw (h.known e he hasked)

variable [Line σ]

theorem enter_logs (w : Watched σ) (call : Call) (line : σ) :
    Logs w [⟨call, (w.enter call line).asked⟩] (w.enter call line) :=
  ⟨rfl, fun hw => by simp [enter, hw], by simp⟩

end Watched

instance {σ : Type} [Line σ] : Line (Watched σ) where
  write offered w :=
    match Line.write offered w.line with
    | (answer, line) => (answer, w.enter (.write offered answer) line)
  read room w :=
    match Line.read room w.line with
    | (answer, line) => (answer, w.enter (.read room (answer.map Subtype.val)) line)
  setTimeout milliseconds w :=
    match Line.setTimeout milliseconds w.line with
    | (answer, line) => (answer, w.enter (.timeout milliseconds answer) line)
  cancelled w := w.asked
  idle w := { w with line := Line.idle w.line, asked := w.asked || Line.cancelled (Line.idle w.line) }

/-! ## The log of a link -/

/-- The calls that the line sees. -/
def lineCalls (calls : Array Call) : List Call :=
  calls.toList.filter (·.reachesLine)

theorem lineCalls_append {before after : Array Call} {calls : List Call}
    (h : after.toList = before.toList ++ calls) :
    lineCalls after = lineCalls before ++ calls.filter (·.reachesLine) := by
  rw [lineCalls, h, List.filter_append, lineCalls]

namespace Link

variable {σ : Type} {l l₁ l' l'' : Link (Watched σ)} {more more' : List Entry}

/-- The log from one link to another, with an entry for each call that the
line saw. -/
structure Logs (l : Link (Watched σ)) (more : List Entry) (l' : Link (Watched σ)) : Prop where
  line : l.line.Logs more l'.line
  calls : lineCalls l'.calls = lineCalls l.calls ++ more.map (·.call)

theorem Logs.refl (l : Link (Watched σ)) : l.Logs [] l :=
  ⟨.refl l.line, by simp⟩

theorem Logs.trans (h : l.Logs more l') (h' : l'.Logs more' l'') : l.Logs (more ++ more') l'' :=
  ⟨h.line.trans h'.line, by rw [h'.calls, h.calls, List.map_append, List.append_assoc]⟩

theorem Logs.of_same (h : l.Logs more l') (hline : l''.line = l'.line) (hcalls : l''.calls = l'.calls) :
    l.Logs more l'' :=
  ⟨hline ▸ h.line, hcalls ▸ h.calls⟩

theorem Logs.note (h : l.Logs more l') (n : Note) : l.Logs more (l'.note n) :=
  h.of_same rfl rfl

theorem Logs.pause (h : l.Logs more l') (milliseconds : Nat) : l.Logs more (l'.pause milliseconds) := by
  have hcalls : lineCalls (l'.pause milliseconds).calls = lineCalls l'.calls := by
    simp [lineCalls, Link.pause, Call.reachesLine]
  exact ⟨h.line, hcalls.trans h.calls⟩

variable [Line σ]

/-- A wish to stop that comes while a line of input is awaited is in no entry. -/
theorem idle_logs (l : Link (Watched σ)) : l.Logs [] l.idle := by
  refine ⟨⟨by simp [Link.idle, Line.idle], fun hl => ?_, by simp⟩, by simp [Link.idle]⟩
  simp [Link.idle, Line.idle, hl]

theorem write_logs {offered : List UInt8} {answer} (h : l.write offered = (answer, l')) :
    l.Logs [⟨.write offered answer, l'.line.asked⟩] l' := by
  have hcalls := write_calls h
  obtain rfl : (l.write offered).1 = answer := by rw [h]
  obtain rfl : (l.write offered).2 = l' := by rw [h]
  exact ⟨Watched.enter_logs _ _ _, lineCalls_append hcalls⟩

theorem read_logs {room : Nat} {answer} (h : l.read room = (answer, l')) :
    l.Logs [⟨.read room (answer.map Subtype.val), l'.line.asked⟩] l' := by
  have hcalls := read_calls h
  obtain rfl : (l.read room).1 = answer := by rw [h]
  obtain rfl : (l.read room).2 = l' := by rw [h]
  exact ⟨Watched.enter_logs _ _ _, lineCalls_append hcalls⟩

theorem setTimeout_logs {milliseconds : Nat} {answer} (h : l.setTimeout milliseconds = (answer, l')) :
    l.Logs [⟨.timeout milliseconds answer, l'.line.asked⟩] l' := by
  obtain rfl : (l.setTimeout milliseconds).1 = answer := by rw [h]
  obtain rfl : (l.setTimeout milliseconds).2 = l' := by rw [h]
  have hcalls : (l.setTimeout milliseconds).2.calls.toList =
      l.calls.toList ++ [.timeout milliseconds (l.setTimeout milliseconds).1] := by simp [setTimeout]
  exact ⟨Watched.enter_logs _ _ _, lineCalls_append hcalls⟩

/-! ## Turns of a conversation -/

/-- Reading on offers nothing. -/
theorem readOn_logs {command : UInt8} {awaited : Nat} {arrived : List UInt8} {fits : arrived.length ≤ awaited}
    {answer} (h : l.readOn command awaited arrived fits = (answer, l')) :
    ∃ more, l.Logs more l' ∧ offers more = [] := by
  fun_induction readOn command awaited arrived fits l with
  | case1 arrived fits l full =>
    obtain ⟨-, rfl⟩ := Prod.mk.inj h
    exact ⟨[], .refl l, rfl⟩
  | case2 arrived fits l short e l₁ hr =>
    obtain ⟨-, rfl⟩ := Prod.mk.inj h
    exact ⟨_, read_logs hr, rfl⟩
  | case3 arrived fits l short room l₁ hr =>
    obtain ⟨-, rfl⟩ := Prod.mk.inj h
    exact ⟨_, read_logs hr, rfl⟩
  | case4 arrived fits l short b more room l₁ hr ih =>
    obtain ⟨rest, hrest, ho⟩ := ih h
    refine ⟨_, (read_logs hr).trans hrest, ?_⟩
    rw [offers_append, ho, List.append_nil]
    rfl

theorem readExactly_logs {command : UInt8} {awaited : Nat} {answer}
    (h : l.readExactly command awaited = (answer, l')) : ∃ more, l.Logs more l' ∧ offers more = [] := by
  unfold readExactly at h
  split at h
  all_goals
    next hr =>
      obtain ⟨-, rfl⟩ := Prod.mk.inj h
      exact readOn_logs hr

theorem readEcho_logs {command : UInt8} {answer} (h : l.readEcho command = (answer, l')) :
    ∃ more, l.Logs more l' ∧ offers more = [] := by
  unfold readEcho at h
  split at h
  next hr =>
    obtain ⟨-, rfl⟩ := Prod.mk.inj h
    exact readExactly_logs hr
  next hr =>
    obtain ⟨more, hlogs, ho⟩ := readExactly_logs hr
    split at h
    all_goals
      obtain ⟨-, rfl⟩ := Prod.mk.inj h
      exact ⟨more, hlogs, ho⟩

/-- An exchange begins with a write and makes no other. -/
theorem exchange_logs {command : UInt8} {n : Nat} {answer} (h : l.exchange command n = (answer, l')) :
    ∃ taken asked heard, l.Logs (⟨.write [command] taken, asked⟩ :: heard) l' ∧ offers heard = [] := by
  unfold exchange at h
  split at h
  next e l₁ hw =>
    obtain ⟨-, rfl⟩ := Prod.mk.inj h
    obtain ⟨taken, hw, -⟩ := writeAll_one hw
    exact ⟨taken, _, [], write_logs hw, rfl⟩
  next l₁ hw =>
    obtain ⟨taken, hw, -⟩ := writeAll_one hw
    split at h
    next e l₂ hr =>
      obtain ⟨-, rfl⟩ := Prod.mk.inj h
      obtain ⟨heard, hlogs, ho⟩ := readEcho_logs hr
      exact ⟨taken, _, heard, (write_logs hw).trans hlogs, ho⟩
    next l₂ hr =>
      obtain ⟨heard, hlogs, ho⟩ := readEcho_logs hr
      obtain ⟨heard', hlogs', ho'⟩ := readExactly_logs h
      refine ⟨taken, _, heard ++ heard', (write_logs hw).trans (hlogs.trans hlogs'), ?_⟩
      rw [offers_append, ho, ho', List.append_nil]

end Link

/-- A turn of the conversation: calls of which the first is a write, and which
offer the bytes of a script as far as they go. -/
structure Turn (script : List UInt8) (turn : List Entry) : Prop where
  offered : offers turn <+: script.map ([·])
  begins : ∀ e ∈ turn.head?, ∃ offered taken, e.call = .write offered taken

theorem Turn.nothing (script : List UInt8) : Turn script [] :=
  ⟨by simp [offers], by simp⟩

namespace Client

variable {σ : Type} [Line σ] {c c' : Client (Watched σ)}

theorem exchange_turn {b : UInt8} {n : Nat} {answer} (h : c.exchange b n = (answer, c')) :
    ∃ turn, c.link.Logs turn c'.link ∧ Turn [b] turn ∧ ∀ v, answer = .ok v → offers turn = [[b]] := by
  unfold exchange at h
  split at h
  next hc =>
    obtain ⟨rfl, rfl⟩ := Prod.mk.inj h
    obtain ⟨taken, asked, heard, hlogs, ho⟩ := Link.exchange_logs (Prod.eta (c.link.exchange b n)).symm
    have hoffers : offers (⟨.write [b] taken, asked⟩ :: heard) = [[b]] := congrArg ([b] :: ·) ho
    exact ⟨_, hlogs, ⟨by simp [hoffers], by simp⟩, fun _ _ => hoffers⟩
  next hc =>
    obtain ⟨rfl, rfl⟩ := Prod.mk.inj h
    exact ⟨[], .refl _, .nothing _, by simp⟩

/-- A script is pursued in one turn. -/
theorem Pursues.turn {script : List Wire.Request} {outcome : Pursued} (h : Pursues script c outcome c') :
    ∃ turn, c.link.Logs turn c'.link ∧ Turn (script.map (·.command)) turn := by
  induction h with
  | done c => exact ⟨[], .refl _, .nothing _⟩
  | @failed e script r c c₁ c' he ha =>
    obtain ⟨turn, hlogs, ht, -⟩ := exchange_turn he
    have hone : [[r.command]] <+: ((r :: script).map (·.command)).map ([·]) := List.prefix_append _ _
    exact ⟨turn, hlogs.of_same ha.line ha.calls, ht.offered.trans hone, ht.begins⟩
  | @next script r bytes outcome c c₁ c₂ c' he ha _ ih =>
    obtain ⟨turn, hlogs, ht, ho⟩ := exchange_turn he
    obtain ⟨rest, hrest, htrest⟩ := ih
    have hoffers := ho bytes rfl
    refine ⟨turn ++ rest, (hlogs.of_same ha.line ha.calls).trans hrest, ?_, ?_⟩
    · rw [offers_append, hoffers]
      exact (List.prefix_append_right_inj _).2 htrest.offered
    · cases turn with
      | nil => cases hoffers
      | cons e turn => exact ht.begins

end Client

/-! ## Listening -/

/-- Nothing was done after the user had asked to stop. -/
def Obedient (log : List Entry) : Prop :=
  ∀ e ∈ log.dropLast, e.asked = false

theorem Obedient.nothing : Obedient [] := by
  simp [Obedient]

theorem Obedient.single (e : Entry) : Obedient [e] := by
  simp [Obedient]

theorem Obedient.cons {e : Entry} {log : List Entry} (h : Obedient log) (he : e.asked = true → log = []) :
    Obedient (e :: log) := by
  cases log with
  | nil => exact .single e
  | cons e' log =>
    intro e'' hmem
    rw [List.dropLast_cons_cons] at hmem
    rcases List.mem_cons.1 hmem with rfl | hmem
    · exact Bool.eq_false_iff.2 fun hasked => nomatch he hasked
    · exact h e'' hmem

namespace Watched

variable {σ : Type} [Line σ] {w w' : Watched σ}

/-- Listening stops as soon as the user asks to. -/
theorem listen_obedient {rounds : Nat} {hs : List Heard} (h : Line.listen rounds w = (hs, w')) :
    ∃ more, w.Logs more w' ∧ more.map (·.call) = hs.map (.read 1) ∧ Obedient more ∧
      (w.asked = true → more = []) := by
  induction rounds generalizing w hs with
  | zero =>
    obtain ⟨rfl, rfl⟩ := Prod.mk.inj h
    exact ⟨[], .refl w, rfl, .nothing, fun _ => rfl⟩
  | succ rounds ih =>
    simp only [Line.listen] at h
    split at h
    next hc =>
      obtain ⟨rfl, rfl⟩ := Prod.mk.inj h
      exact ⟨[], .refl w, rfl, .nothing, fun _ => rfl⟩
    next hc =>
      have hlogs := enter_logs w (.read 1 ((Line.read 1 w.line).1.map Subtype.val)) (Line.read 1 w.line).2
      have hw : w.asked = true → False := fun hasked => hc hasked
      split at h
      · obtain ⟨rfl, rfl⟩ := Prod.mk.inj h
        exact ⟨_, hlogs, rfl, .single _, fun hasked => (hw hasked).elim⟩
      · obtain ⟨rfl, rfl⟩ := Prod.mk.inj h
        obtain ⟨more, hmore, hcalls, hp, hstop⟩ := ih (Prod.eta (Line.listen rounds _)).symm
        exact ⟨_, hlogs.trans hmore, congrArg (_ :: ·) hcalls, hp.cons hstop, fun hasked => (hw hasked).elim⟩

end Watched

end MemsProbe
