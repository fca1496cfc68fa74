/-
What a command may still do when the user asks to stop.

Nothing is cut short: an exchange that has begun goes on to its end, and so
do the two of a raw read and the two of a relay. What the wish to stop does
is that no other is begun. Every loop of the program looks for it before
each turn (`Link.Heeds`), so only the last turn of a command can know of it,
and what that turn may still do is what the command may (`execute_logs`).
The turn of a console is a line of input; there the wish is looked for
before each read as well, so its last call is the one that learns of it.
-/
import MemsProbe.Diagnostics
import MemsProbe.Proofs.Dialogue
import MemsProbe.Proofs.Watched

namespace MemsProbe

/-! ## Loops that look for the wish to stop -/

/-- Only the last turn of a log can know that the user has asked to stop. -/
def Attentive (IsTurn : List Entry → Prop) (log : List Entry) : Prop :=
  ∃ quiet last, log = quiet ++ last ∧ (∀ e ∈ quiet, e.asked = false) ∧ IsTurn last

variable {IsTurn : List Entry → Prop} {log : List Entry}

/-- An entry that knows of the wish to stop is in the last turn. -/
theorem Attentive.split {before after : List Entry} {e : Entry} (h : Attentive IsTurn log)
    (hlog : log = before ++ e :: after) (he : e.asked = true) :
    ∃ quiet begun, before = quiet ++ begun ∧ IsTurn (begun ++ e :: after) := by
  obtain ⟨quiet, last, rfl, hquiet, hlast⟩ := h
  rcases List.append_eq_append_iff.1 hlog with ⟨begun, hbefore, rfl⟩ | ⟨tail, hq, htail⟩
  · exact ⟨quiet, begun, hbefore, hlast⟩
  · cases tail with
    | nil =>
      rw [List.nil_append] at htail
      exact ⟨before, [], (List.append_nil before).symm, htail ▸ hlast⟩
    | cons e' tail =>
      obtain ⟨rfl, -⟩ := List.cons.inj htail
      have hfalse := hquiet e (by simp [hq])
      rw [he] at hfalse
      cases hfalse

/-- What a turn offers up to one of its entries begins its script, and what it
offers after that goes on with it. -/
theorem Turn.split {script : List UInt8} {begun after : List Entry} {e : Entry}
    (h : Turn script (begun ++ e :: after)) :
    ∃ first more, offers (begun ++ [e]) = first :: more ∧ first :: (more ++ offers after) <+: script.map ([·]) := by
  have hsplit : offers (begun ++ e :: after) = offers (begun ++ [e]) ++ offers after := by
    rw [← offers_append, List.append_assoc, List.singleton_append]
  have hoffers : offers (begun ++ [e]) ≠ [] := by
    cases begun with
    | nil =>
      obtain ⟨offered, taken, hcall⟩ := h.begins e (by simp)
      simp [offers, hcall, Call.offer?]
    | cons e' begun =>
      obtain ⟨offered, taken, hcall⟩ := h.begins e' (by simp)
      simp [offers, hcall, Call.offer?]
  obtain ⟨first, more, hfirst⟩ := List.exists_cons_of_ne_nil hoffers
  have hpre := h.offered
  rw [hsplit, hfirst] at hpre
  exact ⟨first, more, hfirst, hpre⟩

/-- When a turn of one byte has learnt of the wish to stop, its byte has been
offered. -/
theorem Turn.over {b : UInt8} {begun after : List Entry} {e : Entry} (h : Turn [b] (begun ++ e :: after)) :
    offers after = [] := by
  obtain ⟨first, more, -, hpre⟩ := h.split
  have hlen := hpre.length_le
  simp only [List.length_cons, List.length_append, List.length_map, List.length_nil] at hlen
  exact List.eq_nil_of_length_eq_zero (by omega)

/-- A turn of two bytes may still offer the second. -/
theorem Turn.half_over {b b' : UInt8} {begun after : List Entry} {e : Entry}
    (h : Turn [b, b'] (begun ++ e :: after)) :
    offers after = [] ∨ offers after = [[b']] ∧ offers (begun ++ [e]) = [[b]] := by
  obtain ⟨first, more, hfirst, hpre⟩ := h.split
  obtain ⟨hb, hrest⟩ := List.cons_prefix_cons.1 hpre
  cases more with
  | cons again more =>
    have hlen := hrest.length_le
    simp only [List.length_cons, List.length_append, List.length_map, List.length_nil] at hlen
    exact .inl (List.eq_nil_of_length_eq_zero (by omega))
  | nil =>
    cases hafter : offers after with
    | nil => exact .inl rfl
    | cons second rest =>
      rw [hafter] at hrest
      obtain ⟨hb', hnone⟩ := List.cons_prefix_cons.1 hrest
      rw [List.prefix_nil.1 hnone, hb', hfirst, hb]
      exact .inr ⟨rfl, rfl⟩

/-- A turn that is obedient ends with the call that learnt of the wish. -/
theorem Obedient.over {begun after : List Entry} {e : Entry} (h : Obedient (begun ++ e :: after))
    (he : e.asked = true) : after = [] := by
  cases after with
  | nil => rfl
  | cons e' after =>
    have hfalse := h e (by simp)
    rw [he] at hfalse
    cases hfalse

namespace Link

variable {σ : Type} [Line σ] {l l₁ l' l'' : Link (Watched σ)} {turn rest later : List Entry}

/-- From one link to another the wish to stop was looked for before each
turn. -/
structure Heeds (IsTurn : List Entry → Prop) (l : Link (Watched σ)) (later : List Entry)
    (l' : Link (Watched σ)) : Prop where
  logs : l.Logs later l'
  attentive : Attentive IsTurn later
  stops : l.cancelled = true → later = []

theorem Heeds.stay (hnone : IsTurn []) (l : Link (Watched σ)) : Heeds IsTurn l [] l :=
  ⟨.refl l, ⟨[], [], rfl, by simp, hnone⟩, fun _ => rfl⟩

theorem Heeds.of_same (h : Heeds IsTurn l later l') (hline : l''.line = l'.line) (hcalls : l''.calls = l'.calls) :
    Heeds IsTurn l later l'' :=
  ⟨h.logs.of_same hline hcalls, h.attentive, h.stops⟩

/-- A last turn. -/
theorem Heeds.last (hc : ¬ l.cancelled = true) (h : l.Logs turn l') (ht : IsTurn turn) :
    Heeds IsTurn l turn l' :=
  ⟨h, ⟨[], turn, rfl, by simp, ht⟩, fun hl => absurd hl hc⟩

/-- A turn before a loop is its last one if the user has asked to stop by the
end of it. -/
theorem Heeds.after (hrest : Heeds IsTurn l₁ rest l') (h : l.Logs turn l₁) (ht : IsTurn turn) :
    Attentive IsTurn (turn ++ rest) := by
  by_cases hc : l₁.cancelled = true
  · obtain rfl := hrest.stops hc
    exact ⟨[], turn, List.append_nil turn, by simp, ht⟩
  · obtain ⟨quiet, last, rfl, hquiet, hlast⟩ := hrest.attentive
    refine ⟨turn ++ quiet, last, (List.append_assoc ..).symm, fun e he => ?_, hlast⟩
    rcases List.mem_append.1 he with he | he
    · exact h.line.quiet hc e he
    · exact hquiet e he

/-- A turn, and then the loop goes on. -/
theorem Heeds.next (hc : ¬ l.cancelled = true) (h : l.Logs turn l₁) (ht : IsTurn turn)
    (hrest : Heeds IsTurn l₁ rest l') : Heeds IsTurn l (turn ++ rest) l' :=
  ⟨h.trans hrest.logs, hrest.after h ht, fun hl => absurd hl hc⟩

end Link

namespace Actuation

variable {σ : Type} [Line σ] {c c' : Client (Watched σ)}

theorem testActuator_turn {actuator : Actuator} {answer} (h : c.testActuator actuator = (answer, c')) :
    ∃ turn, c.link.Logs turn c'.link ∧ Turn [actuator.code] turn := by
  obtain ⟨_, hp, -⟩ := Client.testActuator_pursues h
  exact hp.turn

theorem closeFrom_heeds {rounds remaining attempts : Nat} {answer}
    (h : closeFrom rounds remaining attempts c = (answer, c')) :
    ∃ later, c.link.Heeds (Turn [Actuator.closeIac.code]) later c'.link := by
  fun_induction closeFrom rounds remaining attempts c with
  | case1 | case2 =>
    obtain ⟨-, rfl⟩ := Prod.mk.inj h
    exact ⟨[], .stay (.nothing _) _⟩
  | case3 rounds remaining attempts c hc e c₁ ht =>
    obtain ⟨-, rfl⟩ := Prod.mk.inj h
    obtain ⟨turn, hlogs, hturn⟩ := testActuator_turn ht
    exact ⟨turn, .last hc hlogs hturn⟩
  | case4 rounds remaining attempts c hc readback c₁ ht _ =>
    obtain ⟨-, rfl⟩ := Prod.mk.inj h
    obtain ⟨turn, hlogs, hturn⟩ := testActuator_turn ht
    exact ⟨turn, .last hc (hlogs.note _) hturn⟩
  | case5 rounds remaining attempts c hc readback c₁ ht _ ih =>
    obtain ⟨turn, hlogs, hturn⟩ := testActuator_turn ht
    obtain ⟨rest, hrest⟩ := ih h
    exact ⟨turn ++ rest, .next hc hlogs hturn hrest⟩

theorem openFrom_heeds {rounds attempts : Nat} {answer} (h : openFrom rounds attempts c = (answer, c')) :
    ∃ later, c.link.Heeds (Turn [Actuator.openIac.code]) later c'.link := by
  fun_induction openFrom rounds attempts c with
  | case1 =>
    obtain ⟨-, rfl⟩ := Prod.mk.inj h
    exact ⟨[], .stay (.nothing _) _⟩
  | case2 =>
    obtain ⟨-, rfl⟩ := Prod.mk.inj h
    exact ⟨[], (Link.Heeds.stay (.nothing _) _).of_same rfl rfl⟩
  | case3 rounds attempts c hc e c₁ ht =>
    obtain ⟨-, rfl⟩ := Prod.mk.inj h
    obtain ⟨turn, hlogs, hturn⟩ := testActuator_turn ht
    exact ⟨turn, .last hc hlogs hturn⟩
  | case4 rounds attempts c hc readback c₁ ht _ =>
    obtain ⟨-, rfl⟩ := Prod.mk.inj h
    obtain ⟨turn, hlogs, hturn⟩ := testActuator_turn ht
    exact ⟨turn, .last hc (hlogs.note _) hturn⟩
  | case5 rounds attempts c hc readback c₁ ht _ ih =>
    obtain ⟨turn, hlogs, hturn⟩ := testActuator_turn ht
    obtain ⟨rest, hrest⟩ := ih h
    exact ⟨turn ++ rest, .next hc hlogs hturn hrest⟩

theorem toggleRelay_logs {relay : Relay} {answer} (h : toggleRelay relay c = (answer, c')) :
    ∃ later, c.link.Logs later c'.link := by
  unfold toggleRelay at h
  split at h
  next ht =>
    obtain ⟨-, rfl⟩ := Prod.mk.inj h
    obtain ⟨turn, hlogs, -⟩ := testActuator_turn ht
    exact ⟨turn, hlogs⟩
  next ht =>
    obtain ⟨turn, hlogs, -⟩ := testActuator_turn ht
    split at h
    all_goals
      next ht' =>
        obtain ⟨-, rfl⟩ := Prod.mk.inj h
        obtain ⟨turn', hlogs', -⟩ := testActuator_turn ht'
        exact ⟨turn ++ turn', (hlogs.pause relayHold).trans hlogs'⟩

theorem singleShot_logs {actuator : Actuator} {answer} (h : singleShot actuator c = (answer, c')) :
    ∃ later, c.link.Logs later c'.link := by
  unfold singleShot at h
  split at h
  all_goals
    next ht =>
      obtain ⟨-, rfl⟩ := Prod.mk.inj h
      obtain ⟨turn, hlogs, -⟩ := testActuator_turn ht
      exact ⟨turn, hlogs⟩

end Actuation

/-! ## The console -/

namespace Console

variable {σ ω : Type} [Line σ] {c c' : Console (Watched σ)} {rounds : Nat}

theorem send_logs {b : UInt8} {answer} (h : c.send b = (answer, c')) :
    ∃ taken, c.link.Logs [⟨.write [b] taken, c'.link.line.asked⟩] c'.link := by
  obtain ⟨taken, l', hw, hline, hcalls, -⟩ := send_writes h
  have hlogs := (Link.write_logs hw).of_same hline hcalls
  rw [← hline] at hlogs
  exact ⟨taken, hlogs⟩

/-- A reply is read until the user asks to stop, however long it is. -/
theorem drain_logs {answer} (h : c.drain rounds = (answer, c')) :
    ∃ more, c.link.Logs more c'.link ∧ Obedient more ∧ (c.link.cancelled = true → more = []) := by
  obtain ⟨hs, ⟨hlisten, hcalls⟩, -⟩ := drain_listens h
  obtain ⟨more, hlogs, hmore, hobedient, hstop⟩ := Watched.listen_obedient hlisten
  refine ⟨more, ⟨hlogs, ?_⟩, hobedient, hstop⟩
  have hreads : (hs.map (Call.read 1)).filter (·.reachesLine) = hs.map (Call.read 1) := by
    rw [List.filter_eq_self]
    intro call hcall
    obtain ⟨_, -, rfl⟩ := List.mem_map.1 hcall
    rfl
  rw [lineCalls_append hcalls, hreads, hmore]

variable [Sink ω] {out out' : ω}

omit [Line σ] in
theorem tell_logs {b : UInt8} {text : String} {failure : Option Failure} {answer}
    (h : c.tell b text failure out = (answer, c', out')) : c.link.Logs [] c'.link := by
  simp only [tell] at h
  split at h
  · obtain ⟨-, rfl, -⟩ := by simpa using h
    exact .refl _
  · split at h
    · obtain ⟨-, rfl, -⟩ := by simpa using h
      exact .refl _
    · obtain ⟨-, rfl, -⟩ := by simpa using h
      exact (Link.Logs.refl _).note _

theorem exchangeAndTell_logs {b : UInt8} {answer}
    (h : c.exchangeAndTell rounds b out = (answer, c', out')) :
    ∃ more, c.link.Logs more c'.link ∧ Obedient more := by
  simp only [exchangeAndTell] at h
  split at h
  next cause c₁ hs =>
    obtain ⟨taken, hsent⟩ := send_logs hs
    split at h
    all_goals
      obtain ⟨-, rfl, -⟩ := by simpa using h
      exact ⟨_, hsent.note _, .single _⟩
  next c₁ hs =>
    obtain ⟨taken, hsent⟩ := send_logs hs
    split at h
    next c₂ hd =>
      obtain ⟨-, rfl, -⟩ := by simpa using h
      obtain ⟨more, hdrained, hobedient, hstop⟩ := drain_logs hd
      exact ⟨_, hsent.trans hdrained, hobedient.cons hstop⟩
    next drained c₂ _ hd =>
      obtain ⟨more, hdrained, hobedient, hstop⟩ := drain_logs hd
      split at h
      all_goals
        next ht =>
          obtain ⟨-, rfl, -⟩ := by simpa using h
          have htold := hdrained.trans (tell_logs ht)
          rw [List.append_nil] at htold
          exact ⟨_, hsent.trans htold, hobedient.cons hstop⟩

theorem command_logs {text : String} {answer} (h : c.command rounds text out = (answer, c', out')) :
    ∃ more, c.link.Logs more c'.link ∧ Obedient more := by
  simp only [command] at h
  split at h
  · exact exchangeAndTell_logs h
  · split at h
    all_goals
      obtain ⟨-, rfl, -⟩ := by simpa using h
      exact ⟨[], .refl _, .nothing⟩

/-- While a line is handled nothing is done once the user has asked to stop. -/
theorem step_logs {line : String} {answer} (h : c.step rounds line out = (answer, c', out')) :
    ∃ more, c.link.Logs more c'.link ∧ Obedient more := by
  simp only [step] at h
  split at h
  · obtain ⟨-, rfl, -⟩ := by simpa using h
    exact ⟨[], .refl _, .nothing⟩
  · split at h
    · have hc := prompt_console (.done .blank, c, out)
      rw [h] at hc
      obtain rfl : c' = c := hc
      exact ⟨[], .refl _, .nothing⟩
    · have hc := prompt_console (c.command rounds (String.ofList (Text.trim line.toList)) out)
      rw [h] at hc
      obtain rfl : c' = _ := hc
      exact command_logs (Prod.eta (c.command rounds (String.ofList (Text.trim line.toList)) out)).symm

theorem runLines_heeds {lines : List (List UInt8)} {summary : Summary} {answer}
    (h : runLines rounds lines summary c out = (answer, c', out')) :
    ∃ later, c.link.Heeds Obedient later c'.link := by
  have hstay : ∀ {c : Console (Watched σ)} {summary}, c.link.Heeds Obedient [] (c.close summary).link :=
    (Link.Heeds.stay .nothing _).of_same rfl rfl
  induction lines generalizing summary c out with
  | nil =>
    obtain ⟨-, rfl, -⟩ := by simpa [runLines] using h
    exact ⟨[], hstay⟩
  | cons line lines ih =>
    simp only [runLines] at h
    split at h
    · obtain ⟨-, rfl, -⟩ := by simpa using h
      exact ⟨[], hstay⟩
    next hc =>
    have hawait : c.link.Logs [] c.awaitLine.link := Link.idle_logs c.link
    split at h
    · obtain ⟨-, rfl, -⟩ := by simpa using h
      exact ⟨[], .last hc hawait .nothing⟩
    next text ht =>
    obtain ⟨more, hstep, hobedient⟩ := step_logs (Prod.eta (c.awaitLine.step rounds text out)).symm
    have hturn := hawait.trans hstep
    rw [List.nil_append] at hturn
    split at h
    next hs =>
      obtain ⟨-, rfl, -⟩ := by simpa using h
      rw [hs] at hturn
      exact ⟨more, .last hc hturn hobedient⟩
    next hs =>
      obtain ⟨-, rfl, -⟩ := by simpa using h
      rw [hs] at hturn
      exact ⟨more, .last hc hturn hobedient⟩
    next hs =>
      obtain ⟨-, rfl, -⟩ := by simpa using h
      rw [hs] at hturn
      exact ⟨more, .last hc (hturn.of_same rfl rfl) hobedient⟩
    next step c₁ out₁ _ hs =>
      rw [hs] at hturn
      obtain ⟨rest, hrest⟩ := ih h
      exact ⟨more ++ rest, .next hc hturn hobedient hrest⟩

theorem run_heeds {input : List UInt8} {answer} (h : run rounds input c out = (answer, c', out')) :
    ∃ later, c.link.Heeds Obedient later c'.link := by
  simp only [run] at h
  split at h
  · obtain ⟨-, rfl, -⟩ := by simpa using h
    exact ⟨[], .stay .nothing _⟩
  · split at h
    · obtain ⟨-, rfl, -⟩ := by simpa using h
      exact ⟨[], .stay .nothing _⟩
    · exact runLines_heeds h

/-- Opening a console offers nothing; it sets the timeout at most. -/
theorem start_logs (settings : ConsoleSettings) (l : Link (Watched σ)) :
    ∃ opening, Obedient opening ∧ offers opening = [] ∧
      (∀ c, start settings l = .ok c → l.Logs opening c.link) ∧
      ∀ e l', start settings l = .error (e, l') → l.Logs opening l' := by
  simp only [start]
  split
  · refine ⟨[], .nothing, rfl, by simp, fun e l' h => ?_⟩
    cases h
    exact .refl l
  next response _ =>
    split
    · refine ⟨[], .nothing, rfl, fun c h => ?_, by simp⟩
      cases h
      exact .refl l
    next milliseconds _ =>
      split
      next e l₁ ht =>
        refine ⟨[⟨.timeout milliseconds (.error e), l₁.line.asked⟩], .single _, rfl, by simp, fun e l' h => ?_⟩
        cases h
        exact Link.setTimeout_logs ht
      next l₁ ht =>
        refine ⟨[⟨.timeout milliseconds (.ok ()), l₁.line.asked⟩], .single _, rfl, fun c h => ?_, by simp⟩
        cases h
        exact Link.setTimeout_logs ht

end Console

/-! ## What a command may still do -/

/-- What may still be done after a call by the end of which the user had asked
to stop, that call being the last of those before: nothing is offered, but
for the second frame of a raw read whose first is on its way; and a console
does nothing at all. The other commands promise nothing. -/
def Command.Stops (before after : List Entry) : Command → Prop
  | .read | .iacClose | .iacOpen => offers after = []
  | .readRaw =>
    offers after = [] ∨
      offers after = [[Wire.requestFrame7D]] ∧ (offers before).getLast? = some [Wire.requestFrame80]
  | .interactive => after = []
  | .readIac | .ptc | .fuelPump | .ac | .coil | .injectors => True

/-- The commands that look for the wish to stop. -/
def Command.heedsStop : Command → Bool
  | .read | .readRaw | .iacClose | .iacOpen | .interactive => true
  | .readIac | .ptc | .fuelPump | .ac | .coil | .injectors => false

/-- The relay that a command works. -/
def Command.relay? : Command → Option Relay
  | .ptc => some .ptc
  | .fuelPump => some .fuelPump
  | .ac => some .airCon
  | _ => none

/-- The log of a command keeps what the command promises of it. -/
def Command.Keeps (command : Command) (later : List Entry) : Prop :=
  ∀ before e after, later = before ++ e :: after → e.asked = true → command.Stops (before ++ [e]) after

theorem Attentive.over {b : UInt8} {log before after : List Entry} {e : Entry} (h : Attentive (Turn [b]) log)
    (hlog : log = before ++ e :: after) (he : e.asked = true) : offers after = [] := by
  obtain ⟨quiet, begun, -, hturn⟩ := h.split hlog he
  exact hturn.over

theorem Attentive.half_over {b b' : UInt8} {log before after : List Entry} {e : Entry}
    (h : Attentive (Turn [b, b']) log) (hlog : log = before ++ e :: after) (he : e.asked = true) :
    offers after = [] ∨ offers after = [[b']] ∧ (offers (before ++ [e])).getLast? = some [b] := by
  obtain ⟨quiet, begun, rfl, hturn⟩ := h.split hlog he
  rcases hturn.half_over with hnone | ⟨hsecond, hfirst⟩
  · exact .inl hnone
  · refine .inr ⟨hsecond, ?_⟩
    rw [List.append_assoc, offers_append, hfirst, List.getLast?_append]
    rfl

theorem Attentive.obedient_over {log before after : List Entry} {e : Entry} (h : Attentive Obedient log)
    (hlog : log = before ++ e :: after) (he : e.asked = true) : after = [] := by
  obtain ⟨quiet, begun, -, hturn⟩ := h.split hlog he
  exact hturn.over he

namespace Diagnostics

variable {σ ω α : Type} [Line σ] [Sink ω] {c c' : Client (Watched σ)} {out out' : ω} {rounds : Nat}
  {input : List UInt8} {answer : Outcome Unit}

theorem readLoop_heeds {fetch : Client (Watched σ) → Except Failure α × Client (Watched σ)} {render : α → String}
    {script : List UInt8} {count : ReadCount} {t : Tally}
    (hf : ∀ {c c' : Client (Watched σ)} {a}, fetch c = (a, c') →
      ∃ turn, c.link.Logs turn c'.link ∧ Turn script turn)
    (h : readLoop fetch render count rounds t c out = (answer, c', out')) :
    ∃ later, c.link.Heeds (Turn script) later c'.link := by
  have hstay : ∀ {c : Client (Watched σ)}, c.link.Heeds (Turn script) [] c.link := .stay (.nothing script) _
  induction rounds generalizing t c out with
  | zero =>
    obtain ⟨-, rfl, -⟩ := by simpa [readLoop] using h
    exact ⟨[], hstay⟩
  | succ rounds ih =>
    unfold readLoop at h
    split at h
    · obtain ⟨-, rfl, -⟩ := by simpa [finish] using h
      exact ⟨[], hstay.of_same rfl rfl⟩
    split at h
    · obtain ⟨-, rfl, -⟩ := by simpa [finish] using h
      exact ⟨[], hstay.of_same rfl rfl⟩
    next hc =>
    split at h
    next a c₁ hfetch =>
      obtain ⟨turn, hlogs, hturn⟩ := hf hfetch
      split at h
      · obtain ⟨-, rfl, -⟩ := by simpa using h
        exact ⟨turn, .last hc hlogs hturn⟩
      · obtain ⟨rest, hrest⟩ := ih h
        exact ⟨turn ++ rest, .next hc hlogs hturn hrest⟩
    next e c₁ hfetch =>
      obtain ⟨turn, hlogs, hturn⟩ := hf hfetch
      obtain ⟨rest, hrest⟩ := ih h
      exact ⟨turn ++ rest, .next hc (hlogs.note _) hturn hrest⟩

theorem readPosition_logs {format : OutputFormat} (h : readPosition format c out = (answer, c', out')) :
    ∃ later, c.link.Logs later c'.link := by
  have hread : ∃ later, c.link.Logs later c.readIacPosition.2.link := by
    obtain ⟨_, hp, -⟩ := Client.readIacPosition_pursues (Prod.eta c.readIacPosition).symm
    obtain ⟨turn, hlogs, -⟩ := hp.turn
    exact ⟨turn, hlogs⟩
  unfold readPosition at h
  split at h
  next hr =>
    obtain ⟨-, rfl, -⟩ := by simpa using h
    rwa [hr] at hread
  next hr =>
    rw [hr] at hread
    split at h
    all_goals
      obtain ⟨-, rfl, -⟩ := by simpa using h
      exact hread

/-- A console is obedient from the moment that it is opened. -/
theorem interactive_logs {settings : ConsoleSettings}
    (h : interactive settings rounds input c out = (answer, c', out')) :
    ∃ later, c.link.Logs later c'.link ∧ Attentive Obedient later ∧ (c.cancelled = true → offers later = []) := by
  obtain ⟨opening, hobedient, hoffers, hok, herror⟩ := Console.start_logs settings c.link
  unfold interactive at h
  split at h
  next e l hs =>
    obtain ⟨-, rfl, -⟩ := by simpa using h
    exact ⟨opening, herror e l hs, ⟨[], opening, rfl, by simp, hobedient⟩, fun _ => hoffers⟩
  next console hs =>
    have hopening := hok console hs
    obtain ⟨rest, hrest⟩ := Console.run_heeds (Prod.eta (console.run rounds input out)).symm
    have hlater : c.link.Logs (opening ++ rest) (console.run rounds input out).2.1.link :=
      hopening.trans hrest.logs
    have hstop : c.cancelled = true → offers (opening ++ rest) = [] := by
      intro hc
      rw [hrest.stops (hopening.line.still hc), List.append_nil, hoffers]
    refine ⟨opening ++ rest, ?_, hrest.after hopening hobedient, hstop⟩
    split at h
    all_goals
      next hr =>
        obtain ⟨-, rfl, -⟩ := by simpa using h
        rw [hr] at hlater
        exact hlater

section

omit [Line σ] [Sink ω]

theorem ofActuation_same {run : Outcome ActuationReport × Client σ} {c' : Client σ}
    (h : ofActuation out run = (answer, c', out')) :
    c'.link.line = run.2.link.line ∧ c'.link.calls = run.2.link.calls := by
  obtain ⟨made, c⟩ := run
  cases made
  all_goals
    obtain ⟨-, rfl, -⟩ := by simpa [ofActuation] using h
    exact ⟨rfl, rfl⟩

end

/-- Every command keeps what it promises, and one that looks for the wish to
stop offers nothing if it is there from the start. -/
theorem execute_logs {options : RunOptions} {command : Command}
    (h : execute options rounds command input c out = (answer, c', out')) :
    ∃ later, c.link.Logs later c'.link ∧ command.Keeps later ∧
      (c.cancelled = true → command.heedsStop = true → offers later = []) := by
  cases command with
  | read =>
    obtain ⟨later, hheeds⟩ := readLoop_heeds (fun hf => by
      obtain ⟨_, hp, -⟩ := Client.readData_pursues hf
      exact hp.turn) h
    exact ⟨later, hheeds.logs, fun _ _ _ hlog he => hheeds.attentive.over hlog he,
      fun hc _ => congrArg offers (hheeds.stops hc)⟩
  | readRaw =>
    obtain ⟨later, hheeds⟩ := readLoop_heeds (fun hf => by
      obtain ⟨_, hp, -⟩ := Client.readRaw_pursues hf
      exact hp.turn) h
    exact ⟨later, hheeds.logs, fun _ _ _ hlog he => hheeds.attentive.half_over hlog he,
      fun hc _ => congrArg offers (hheeds.stops hc)⟩
  | iacClose =>
    obtain ⟨later, hheeds⟩ := Actuation.closeFrom_heeds (Prod.eta (Actuation.closeIac rounds options.closeLimit c)).symm
    obtain ⟨hline, hcalls⟩ := ofActuation_same h
    have hheeds := hheeds.of_same hline hcalls
    exact ⟨later, hheeds.logs, fun _ _ _ hlog he => hheeds.attentive.over hlog he,
      fun hc _ => congrArg offers (hheeds.stops hc)⟩
  | iacOpen =>
    obtain ⟨later, hheeds⟩ := Actuation.openFrom_heeds (Prod.eta (Actuation.openIac rounds c)).symm
    obtain ⟨hline, hcalls⟩ := ofActuation_same h
    have hheeds := hheeds.of_same hline hcalls
    exact ⟨later, hheeds.logs, fun _ _ _ hlog he => hheeds.attentive.over hlog he,
      fun hc _ => congrArg offers (hheeds.stops hc)⟩
  | interactive =>
    obtain ⟨later, hlogs, hattentive, hstop⟩ := interactive_logs h
    exact ⟨later, hlogs, fun _ _ _ hlog he => hattentive.obedient_over hlog he, fun hc _ => hstop hc⟩
  | readIac =>
    obtain ⟨later, hlogs⟩ := readPosition_logs h
    exact ⟨later, hlogs, fun _ _ _ _ _ => trivial, fun _ => nofun⟩
  | ptc | fuelPump | ac =>
    obtain ⟨later, hlogs⟩ := Actuation.toggleRelay_logs (Prod.eta (Actuation.toggleRelay _ c)).symm
    obtain ⟨hline, hcalls⟩ := ofActuation_same h
    exact ⟨later, hlogs.of_same hline hcalls, fun _ _ _ _ _ => trivial, fun _ => nofun⟩
  | coil | injectors =>
    obtain ⟨later, hlogs⟩ := Actuation.singleShot_logs (Prod.eta (Actuation.singleShot _ c)).symm
    obtain ⟨hline, hcalls⟩ := ofActuation_same h
    exact ⟨later, hlogs.of_same hline hcalls, fun _ _ _ _ _ => trivial, fun _ => nofun⟩

end Diagnostics

end MemsProbe
