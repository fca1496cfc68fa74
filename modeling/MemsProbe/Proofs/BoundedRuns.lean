/-
Every bounded run ends.

A run is bounded if its reads are counted and its line, once the ECU is
awake, can bring only so many bytes in answer to what the command offers.
Such a run ends (`run_ends`), and the bounds tell how much it does until
then. An actuator loop offers its byte once for every two bytes that are
still to come, and once more: each time it goes round takes an echo and a
readback, and the time that does not is the last. Reads are made just as
often as asked for. A reply on the console takes a read for each byte and
one for its end.
-/
import MemsProbe.Proofs.Disconnected
import MemsProbe.Proofs.Settling
import MemsProbe.Proofs.Sinks
import MemsProbe.Proofs.WireLanguage

namespace MemsProbe

/-! ## Counting what is offered -/

/-- The bytes offered by attempts. -/
def offered (made : List Attempt) : List (List UInt8) :=
  made.map (·.offered)

theorem offered_append (made made' : List Attempt) : offered (made ++ made') = offered made ++ offered made' :=
  List.map_append

theorem Follows.offered_prefix {script : List UInt8} {made : List Attempt} (h : Follows script made) :
    offered made <+: script.map ([·]) := by
  induction h with
  | done => simp [offered]
  | broken ho _ => simp [offered, ho]
  | next ho _ _ ih => simpa [offered, ho] using ih

theorem Follows.count_le {script : List UInt8} {made : List Attempt} (h : Follows script made) (b : UInt8) :
    (offered made).count [b] ≤ (script.map ([·])).count [b] :=
  h.offered_prefix.sublist.count_le [b]

/-- However often a script is begun, so often its first byte is offered. -/
theorem count_turns {b : UInt8} {rest : List UInt8} {turns : List (List Attempt)} (hb : b ∉ rest)
    (h : ∀ turn ∈ turns, Follows (b :: rest) turn) : (offered turns.flatten).count [b] = turns.length := by
  induction turns with
  | nil => rfl
  | cons turn turns ih =>
    obtain ⟨hturn, hturns⟩ := List.forall_mem_cons.1 h
    have hle := hturn.count_le b
    have hnone : (rest.map ([·])).count [b] = 0 := List.count_eq_zero.2 (by simpa using hb)
    have hscript : ((b :: rest).map ([·])).count [b] = 1 := by simp [hnone]
    have hpos : 0 < (offered turn).count [b] := by
      cases hturn with
      | broken ho _ | next ho _ _ => simp [offered, ho]
    have hone : (offered turn).count [b] = 1 := by omega
    rw [List.flatten_cons, offered_append, List.count_append, ih hturns, hone, List.length_cons, Nat.add_comm]

/-! ## Replies on the console -/

/-- A reply that the user does not cut short takes a read for each byte and
one for its end. -/
theorem Console.exchange_drains {σ : Type} [Line σ] {c : Console σ} {b : UInt8} {bytes : List UInt8} {stop : Stop}
    {t : σ} {rounds : Nat} (never : Line.NeverStops c.link.line) (ht : (Line.write [b] c.link.line).1 = .ok 1)
    (h : Line.Delivers (Line.write [b] c.link.line).2 bytes stop t) (hr : bytes.length < rounds) :
    (c.exchange rounds b).1 ≠ .unfinished ∧
      (heardIn (c.link.callsUntil (c.exchange rounds b).2.link)).length = bytes.length + 1 := by
  have hsent : Line.write [b] c.link.line = (.ok 1, (Line.write [b] c.link.line).2) := by rw [← ht]
  obtain ⟨-, hcalls, -⟩ := exchange_inquires (Prod.eta (c.exchange rounds b)).symm
  rw [Line.inquire_taken hsent, h.listen hr] at hcalls
  refine ⟨(exchange_ends_iff rounds ht).2 ⟨bytes, stop, t, h, hr⟩, ?_⟩
  rw [Link.callsUntil_eq hcalls, heardIn_calls, Stop.length_after, if_neg (h.unasked (never.write hsent))]

/-! ## Actuator loops -/

namespace Actuation

variable {σ : Type} [Line σ] {c c' : Client σ} {offers : UInt8 → Prop} {bound rounds : Nat}

theorem closeFrom_bounded {remaining attempts : Nat} {answer} (hc : c.connected = true)
    (ho : offers Actuator.closeIac.code) (hl : Line.AtMost offers bound c.link.line)
    (h : closeFrom rounds remaining attempts c = (answer, c')) :
    ∃ n, n ≤ bound / 2 + 1 ∧ c.Performs (List.replicate n Actuator.closeIac.code) c' := by
  fun_induction closeFrom rounds remaining attempts c generalizing bound with
  | case1 | case2 =>
    obtain ⟨rfl, rfl⟩ := Prod.mk.inj h
    exact ⟨0, Nat.zero_le _, .nil _⟩
  | case3 rounds remaining attempts c _ e c₁ ht =>
    obtain ⟨rfl, rfl⟩ := Prod.mk.inj h
    exact ⟨1, Nat.le_add_left 1 _, (Client.testActuator_asks hc ht).broken⟩
  | case4 rounds remaining attempts c _ readback c₁ ht =>
    obtain ⟨rfl, rfl⟩ := Prod.mk.inj h
    exact ⟨1, Nat.le_add_left 1 _, ((Client.testActuator_asks hc ht).next (.nil _)).note _⟩
  | case5 rounds remaining attempts c _ readback c₁ ht _ ih =>
    have ha := Client.testActuator_asks hc ht
    obtain ⟨hle, hless⟩ := testActuator_less ho hl ht
    obtain ⟨n, hn, hp⟩ := ih (ha.connected hc) hless h
    exact ⟨n + 1, by omega, ha.next hp⟩

theorem openFrom_bounded {attempts : Nat} {answer} (hc : c.connected = true)
    (ho : offers Actuator.openIac.code) (hl : Line.AtMost offers bound c.link.line)
    (h : openFrom rounds attempts c = (answer, c')) :
    ∃ n, n ≤ bound / 2 + 1 ∧ c.Performs (List.replicate n Actuator.openIac.code) c' := by
  fun_induction openFrom rounds attempts c generalizing bound with
  | case1 =>
    obtain ⟨rfl, rfl⟩ := Prod.mk.inj h
    exact ⟨0, Nat.zero_le _, .nil _⟩
  | case2 =>
    obtain ⟨rfl, rfl⟩ := Prod.mk.inj h
    exact ⟨0, Nat.zero_le _, (Client.Performs.nil _).note _⟩
  | case3 rounds attempts c _ e c₁ ht =>
    obtain ⟨rfl, rfl⟩ := Prod.mk.inj h
    exact ⟨1, Nat.le_add_left 1 _, (Client.testActuator_asks hc ht).broken⟩
  | case4 rounds attempts c _ readback c₁ ht =>
    obtain ⟨rfl, rfl⟩ := Prod.mk.inj h
    exact ⟨1, Nat.le_add_left 1 _, ((Client.testActuator_asks hc ht).next (.nil _)).note _⟩
  | case5 rounds attempts c _ readback c₁ ht _ ih =>
    have ha := Client.testActuator_asks hc ht
    obtain ⟨hle, hless⟩ := testActuator_less ho hl ht
    obtain ⟨n, hn, hp⟩ := ih (ha.connected hc) hless h
    exact ⟨n + 1, by omega, ha.next hp⟩

end Actuation

/-- The actuator that a command works until it is answered as it should
be. -/
def Command.drive? : Command → Option Actuator
  | .iacClose => some .closeIac
  | .iacOpen => some .openIac
  | _ => none

theorem Client.disconnect_notes {σ : Type} {c : Client σ} {n : Note} (h : n ∈ c.link.notes) :
    n ∈ c.disconnect.link.notes := by
  unfold disconnect
  split
  · exact Array.mem_push_of_mem _ h
  · exact h

namespace Diagnostics

variable {σ ω α : Type} [Line σ] [Sink ω] {c c' : Client σ} {out : ω} {rounds n : Nat}

/-! ## Counted reads -/

/-- One more read, which follows its script whether or not it succeeds. -/
theorem readLoop_step {fetch : Client σ → Except Failure α × Client σ} {script : List UInt8} {t : Tally}
    (render : α → String) (rounds : Nat)
    (hf : ∀ {c c' : Client σ} {a}, c.connected = true → fetch c = (a, c') →
      c.Performs script c' ∧ Line.Leads c.link.line c'.link.line)
    (hc : c.connected = true) (never : Line.NeverStops c.link.line) (works : Sink.Works out)
    (ht : t.succeeded ≤ t.reads) (hmore : t.reads < n) :
    ∃ (turn : List Attempt) (t' : Tally) (c' : Client σ) (out' : ω),
      readLoop fetch render (.times n) (rounds + 1) t c out = readLoop fetch render (.times n) rounds t' c' out' ∧
        c.Makes turn c' ∧ Follows script turn ∧ Line.Leads c.link.line c'.link.line ∧ Sink.Works out' ∧
        t'.reads = t.reads + 1 ∧ t'.succeeded ≤ t'.reads := by
  have hstop : c.cancelled = false := never _ (.refl _)
  have henough : isEnough (.times n) t.reads = false := by simpa [isEnough] using hmore
  rcases hfetch : fetch c with ⟨e | a, c₁⟩
  · obtain ⟨⟨turn, hm, hturn⟩, hleads⟩ := hf hc hfetch
    exact ⟨turn, { t with reads := t.reads + 1, lastFailure := some e }, c₁.note (.readFailed (t.reads + 1) e), out,
      by simp [readLoop, henough, hstop, hfetch], hm.note _, hturn, hleads, works, rfl, Nat.le_succ_of_le ht⟩
  · obtain ⟨⟨turn, hm, hturn⟩, hleads⟩ := hf hc hfetch
    obtain ⟨out₁, he, works₁⟩ := works.emit (render a)
    exact ⟨turn, { t with reads := t.reads + 1, succeeded := t.succeeded + 1 }, c₁, out₁,
      by simp [readLoop, henough, hstop, hfetch, he], hm, hturn, hleads, works₁, rfl, Nat.succ_le_succ ht⟩

/-- Reads are made until there are as many as asked for, each of them
following its script, and that number is the last that is counted to. -/
theorem readLoop_fetches {fetch : Client σ → Except Failure α × Client σ} {script : List UInt8} {t : Tally}
    (render : α → String)
    (hf : ∀ {c c' : Client σ} {a}, c.connected = true → fetch c = (a, c') →
      c.Performs script c' ∧ Line.Leads c.link.line c'.link.line)
    (hc : c.connected = true) (never : Line.NeverStops c.link.line) (works : Sink.Works out)
    (ht : t.succeeded ≤ t.reads) (hn : t.reads ≤ n) (hr : n - t.reads < rounds) :
    ∃ (turns : List (List Attempt)) (t' : Tally) (d : Client σ) (out' : ω),
      readLoop fetch render (.times n) rounds t c out = finish t' d out' ∧ c.Makes turns.flatten d ∧
        (∀ turn ∈ turns, Follows script turn) ∧ turns.length = n - t.reads ∧ t'.reads = n ∧ t'.succeeded ≤ n := by
  induction rounds generalizing t c out with
  | zero => omega
  | succ rounds ih =>
    obtain hdone | hmore := Nat.eq_or_lt_of_le hn
    · have henough : isEnough (.times n) t.reads = true := by simp [isEnough, hdone]
      exact ⟨[], t, c, out, by simp [readLoop, henough], .refl c, by simp, by simp [hdone], hdone, hdone ▸ ht⟩
    · obtain ⟨turn, t₁, c₁, out₁, hstep, hm, hturn, hleads, works₁, hreads₁, ht₁⟩ :=
        readLoop_step render rounds hf hc never works ht hmore
      obtain ⟨turns, t', d, out', hrun, hmade, hturns, hlength, hreads, hsucceeded⟩ :=
        ih (hm.connected hc) (never.leads hleads) works₁ ht₁ (by omega) (by omega)
      refine ⟨turn :: turns, t', d, out', hstep.trans hrun, hm.trans hmade, List.forall_mem_cons.2 ⟨hturn, hturns⟩,
        ?_, hreads, hsucceeded⟩
      rw [List.length_cons, hlength]
      omega

/-- So its byte is offered just as often as asked for, and the count of reads
ends there. -/
theorem readLoop_said {fetch : Client σ → Except Failure α × Client σ} {render : α → String} {b : UInt8}
    (rest : List UInt8) (hb : b ∉ rest)
    (hf : ∀ {c c' : Client σ} {a}, c.connected = true → fetch c = (a, c') →
      c.Performs (b :: rest) c' ∧ Line.Leads c.link.line c'.link.line)
    (hc : c.connected = true) (never : Line.NeverStops c.link.line) (works : Sink.Works out) (hr : n < rounds) :
    ∃ made succeeded, c.Makes made (readLoop fetch render (.times n) rounds {} c out).2.1 ∧
      (offered made).count [b] = n ∧ succeeded ≤ n ∧
      .readsSucceeded succeeded n ∈ (readLoop fetch render (.times n) rounds {} c out).2.1.link.notes := by
  obtain ⟨turns, t, d, out', hrun, hm, hturns, hlength, hreads, hsucceeded⟩ :=
    readLoop_fetches (t := {}) render hf hc never works (Nat.le_refl 0) (Nat.zero_le n) hr
  rw [hrun]
  refine ⟨_, t.succeeded, hm.note _, (count_turns hb hturns).trans hlength, hsucceeded, ?_⟩
  simp [finish, hreads, Client.note, Link.note]

/-! ## Whole runs -/

omit [Line σ] [Sink ω] in
theorem ofActuation_said {run : Outcome ActuationReport × Client σ} {b : UInt8} {bound : Nat}
    (h : ∃ n, n ≤ bound ∧ c.Performs (List.replicate n b) run.2) :
    ∃ made, c.Makes made (ofActuation out run).2.1 ∧ (offered made).count [b] ≤ bound := by
  obtain ⟨n, hn, hp⟩ := h
  obtain ⟨made, hm, hf⟩ := ofActuation_performs hp (Prod.eta (ofActuation out run)).symm
  have hle := hf.count_le b
  simp only [List.map_replicate, List.count_replicate_self] at hle
  exact ⟨made, hm, Nat.le_trans hle hn⟩

variable {options : RunOptions} {command : Command} {input : List UInt8} {b : UInt8}

/-- None of the bytes that wake the ECU is one of the command's. -/
theorem initLink_unsaid {answer} (hc : c.connected = true) (hb : b ∉ Operation.initLink.commands)
    (h : c.initLink = (answer, c')) : ∃ wake, c.Makes wake c' ∧ (offered wake).count [b] = 0 := by
  obtain ⟨wake, hm, hf, -⟩ := Client.initLink_made hc h
  have hle := hf.count_le b
  have hnone : (Operation.initLink.commands.map ([·])).count [b] = 0 := List.count_eq_zero.2 (by simpa using hb)
  exact ⟨wake, hm, Nat.le_zero.1 (hnone ▸ hle)⟩

/-- A run offers a byte no more often than its command does. -/
theorem run_said {most : Nat} (out : ω) (hc : c.connected = true) (hb : b ∉ Operation.initLink.commands)
    (h : ∀ id c₁ (out₁ : ω), c.initLink = (.ok id, c₁) →
      ∃ made, c₁.Makes made (execute options rounds command input c₁ out₁).2.1 ∧ (offered made).count [b] ≤ most) :
    ∃ made, c.link.Makes made (run options rounds command input c out).2.1.link ∧ (offered made).count [b] ≤ most := by
  suffices hcarried : ∃ made, c.Makes made (wakeAndExecute options rounds command input c out).2.1 ∧
      (offered made).count [b] ≤ most by
    obtain ⟨made, hm, hle⟩ := hcarried
    obtain ⟨-, -, hcalls, -⟩ := run_same options rounds command input c out
    exact ⟨made, hm.1.of_calls_eq hcalls, hle⟩
  rcases hi : c.initLink with ⟨e | id, c₁⟩
  · obtain ⟨wake, hm, hnone⟩ := initLink_unsaid hc hb hi
    exact ⟨wake, by simpa [wakeAndExecute, hi] using hm, by omega⟩
  obtain ⟨wake, hm, hnone⟩ := initLink_unsaid hc hb hi
  rcases hp : Sink.print (headerText id.toList) out with ⟨e | _, out₁⟩
  · exact ⟨wake, by simpa [wakeAndExecute, hi, hp] using hm, by omega⟩
  · obtain ⟨made, hm', hle⟩ := h id c₁ out₁ hi
    refine ⟨wake ++ made, by simpa [wakeAndExecute, hi, hp] using hm.trans hm', ?_⟩
    rwa [offered_append, List.count_append, hnone, Nat.zero_add]

theorem execute_drives {actuator : Actuator} {bound : Nat} (hc : c.connected = true)
    (drives : command.drive? = some actuator) (hl : Line.AtMost (command.Offers options input) bound c.link.line) :
    ∃ made, c.Makes made (execute options rounds command input c out).2.1 ∧
      (offered made).count [actuator.code] ≤ bound / 2 + 1 := by
  cases command <;> cases drives
  case iacClose =>
    have ho : Command.iacClose.Offers options input Actuator.closeIac.code := rfl
    exact ofActuation_said (Actuation.closeFrom_bounded hc ho hl (Prod.eta (Actuation.closeIac rounds _ c)).symm)
  case iacOpen =>
    have ho : Command.iacOpen.Offers options input Actuator.openIac.code := rfl
    exact ofActuation_said (Actuation.openFrom_bounded hc ho hl (Prod.eta (Actuation.openIac rounds c)).symm)

/-- A command that reads a number of times does so, if the user sees it. -/
theorem execute_fetches (input : List UInt8) (hc : c.connected = true) (reads : command = .read ∨ command = .readRaw)
    (counted : options.readCount = .times n) (never : Line.NeverStops c.link.line) (works : Sink.Works out)
    (hr : n < rounds) :
    ∃ made succeeded, c.Makes made (execute options rounds command input c out).2.1 ∧
      (offered made).count [Wire.requestFrame80] = n ∧ succeeded ≤ n ∧
      .readsSucceeded succeeded n ∈ (execute options rounds command input c out).2.1.link.notes := by
  obtain rfl | rfl := reads
  · simp only [execute, counted]
    refine readLoop_said (b := Wire.requestFrame80) [] (by simp) (fun hc h => ?_) hc never works hr
    obtain ⟨_, hp, -⟩ := Client.readData_pursues h
    exact ⟨hp.performs hc, hp.leads⟩
  · simp only [execute, counted]
    refine readLoop_said (b := Wire.requestFrame80) [Wire.requestFrame7D] (by decide) (fun hc h => ?_) hc
      never works hr
    obtain ⟨_, hp, -⟩ := Client.readRaw_pursues h
    exact ⟨hp.performs hc, hp.leads⟩

theorem run_fetches {id} (input : List UInt8) (hc : c.connected = true) (hi : c.initLink = (.ok id, c'))
    (reads : command = .read ∨ command = .readRaw) (counted : options.readCount = .times n)
    (never : Line.NeverStops c.link.line) (works : Sink.Works out) (hr : n < rounds) :
    ∃ made succeeded, c.link.Makes made (run options rounds command input c out).2.1.link ∧
      (offered made).count [Wire.requestFrame80] = n ∧ succeeded ≤ n ∧
      .readsSucceeded succeeded n ∈ (run options rounds command input c out).2.1.link.notes := by
  obtain ⟨wake, hm, hnone⟩ := initLink_unsaid (b := Wire.requestFrame80) hc (by decide) hi
  obtain ⟨_, hp, -⟩ := Client.initLink_pursues hi
  obtain ⟨out₁, hprint, works₁⟩ := works.print (headerText id.toList)
  obtain ⟨made, succeeded, hm', hcount, hle, hnote⟩ := execute_fetches input (hm.connected hc) reads counted
    (never.leads hp.leads) works₁ hr
  have hawake : wakeAndExecute options rounds command input c out = execute options rounds command input c' out₁ := by
    simp [wakeAndExecute, hi, hprint]
  obtain ⟨-, -, hcalls, -⟩ := run_same options rounds command input c out
  rw [hawake] at hcalls
  refine ⟨wake ++ made, succeeded, (hm.trans hm').1.of_calls_eq hcalls, ?_, hle, ?_⟩
  · rw [offered_append, List.count_append, hnone, hcount, Nat.zero_add]
  · rw [run, hawake]
    split
    next heq => rwa [heq] at hnote
    next heq =>
      rw [heq] at hnote
      exact Client.disconnect_notes hnote

/-- **Every bounded run ends**, for any line and any sink: a run whose reads
are counted and whose line, once it is awake, can bring no more than so many
bytes in answer to its command comes to the same end with any number of
rounds that is large enough. Until then an actuator loop offers its byte no
more often than half as many times, and once more. Reads that the user
neither stops nor fails to see are made as often as asked for, and counted
up to there. And an exchange of the console, on a line that can bring only
so much more after its byte was taken, ends, with a read for each byte of the
reply and one for its end. -/
theorem run_ends (options : RunOptions) (command : Command) (input : List UInt8) (line : σ) (out : ω) {bound : Nat}
    (counted : command = .read ∨ command = .readRaw → options.readCount ≠ .forever)
    (finite : ∀ id c, ({ link := { line } } : Client σ).initLink = (.ok id, c) →
      Line.AtMost (command.Offers options input) bound c.link.line) :
    let run := fun rounds => Diagnostics.run options rounds command input { link := { line } } out
    let said := fun rounds => offered (attempts (run rounds).2.1.link.calls.toList)
    (∃ enough answer c out', answer ≠ .unfinished ∧ ∀ rounds, enough ≤ rounds → run rounds = (answer, c, out')) ∧
      (∀ actuator, command.drive? = some actuator →
        ∀ rounds, (said rounds).count [actuator.code] ≤ bound / 2 + 1) ∧
      (∀ n id c, command = .read ∨ command = .readRaw → options.readCount = .times n →
        ({ link := { line } } : Client σ).initLink = (.ok id, c) → Line.NeverStops line → Sink.Works out →
        ∀ rounds, n < rounds → (said rounds).count [Wire.requestFrame80] = n ∧
          ∃ succeeded, succeeded ≤ n ∧ .readsSucceeded succeeded n ∈ (run rounds).2.1.link.notes) ∧
      ∀ (console : Console σ) (b : UInt8) (room : Nat), Line.NeverStops console.link.line →
        (Line.write [b] console.link.line).1 = .ok 1 →
        Line.AtMost (fun _ => False) room (Line.write [b] console.link.line).2 →
        ∃ bytes stop t, Line.Delivers (Line.write [b] console.link.line).2 bytes stop t ∧ bytes.length ≤ room ∧
          ∀ rounds, bytes.length < rounds → (console.exchange rounds b).1 ≠ .unfinished ∧
            (heardIn (console.link.callsUntil (console.exchange rounds b).2.link)).length = bytes.length + 1 := by
  intro run said
  refine ⟨?_, fun actuator drives rounds => ?_, fun n id c reads htimes hi never works rounds hr => ?_,
    fun console b room never ht hroom => ?_⟩
  · obtain ⟨enough, answer, ⟨c, out'⟩, ended, -, hrun⟩ := run_settles counted finite out
    exact ⟨enough, answer, c, out', ended, hrun⟩
  · have hb : actuator.code ∉ Operation.initLink.commands := by
      cases command <;> cases drives <;> decide
    have hdrives : ∀ id c₁ (out₁ : ω), ({ link := { line } } : Client σ).initLink = (.ok id, c₁) →
        ∃ made, c₁.Makes made (execute options rounds command input c₁ out₁).2.1 ∧
          (offered made).count [actuator.code] ≤ bound / 2 + 1 := by
      intro id c₁ out₁ hi
      obtain ⟨_, hm, -⟩ := Client.initLink_made rfl hi
      exact execute_drives (hm.connected rfl) drives (finite id c₁ hi)
    obtain ⟨made, hm, hle⟩ := run_said out rfl hb hdrives
    rwa [← hm.attempts rfl] at hle
  · obtain ⟨made, succeeded, hm, hcount, hle, hnote⟩ := run_fetches input rfl hi reads htimes never works hr
    refine ⟨?_, succeeded, hle, hnote⟩
    rwa [← hm.attempts rfl] at hcount
  · obtain ⟨bytes, stop, t, hd, hlt⟩ := hroom.stopsWithin
    exact ⟨bytes, stop, t, hd, Nat.le_of_lt_succ hlt, fun rounds => Console.exchange_drains never ht hd⟩

/-- An ECU that wakes, answers two commands to open its valve and is silent
from then on. -/
def faltering : ScriptedLine where
  replies := fun b =>
    if b = 0xFE then [[.piece [0xFE, 10]], [.piece [0xFE, 20]], []]
    else if b = 0xD0 then [[.piece [0xD0, 1, 2, 3, 4]]]
    else if b = 0x80 then []
    else [[.piece [b]]]

/-- The valve is told to open three times, which is as often as four bytes
allow; two reads are made though none succeeds; and the console hears one
byte and reads once more. -/
theorem faltering_ends :
    let opening := fun rounds =>
      run {} rounds .iacOpen [] { link := { line := faltering } } ({} : BoundedSink)
    let reading := fun rounds =>
      run { readCount := .times 2 } rounds .read [] { link := { line := faltering } } ({} : BoundedSink)
    let console : Console ScriptedLine :=
      { link := { line := faltering }, policy := .strict, response := ⟨#[], 8, by decide⟩ }
    let offeredIn := fun run : Outcome Unit × Client ScriptedLine × BoundedSink =>
      offered (attempts run.2.1.link.calls.toList)
    (∃ enough answer c out, answer ≠ .unfinished ∧ ∀ rounds, enough ≤ rounds → opening rounds = (answer, c, out)) ∧
      (∀ rounds, (offeredIn (opening rounds)).count [0xFE] ≤ 3) ∧
      (offeredIn (opening 3)).count [0xFE] = 3 ∧
      (∀ rounds, 2 < rounds → (offeredIn (reading rounds)).count [0x80] = 2) ∧
      ∃ bytes stop t, Line.Delivers (Line.write [0x10] faltering).2 bytes stop t ∧ bytes.length ≤ 1 ∧
        ∀ rounds, bytes.length < rounds → (console.exchange rounds 0x10).1 ≠ .unfinished ∧
          (heardIn (console.link.callsUntil (console.exchange rounds 0x10).2.link)).length = bytes.length + 1 := by
  intro opening reading console offeredIn
  have never : Line.NeverStops faltering := ScriptedLine.Unstopped.neverStops ⟨rfl, rfl, rfl⟩
  have works : Sink.Works ({} : BoundedSink) := BoundedSink.Open.works ⟨rfl, rfl⟩
  have hawake : ∀ id c, ({ link := { line := faltering } } : Client ScriptedLine).initLink = (.ok id, c) →
      Line.AtMost (· ∈ [0xFE, 0x80]) 4 c.link.line := by
    intro id c hi
    obtain rfl : (({ link := { line := faltering } } : Client ScriptedLine).initLink).2 = c := by rw [hi]
    have hspends : (({ link := { line := faltering } } : Client ScriptedLine).initLink).2.link.line.Spends
        [0xFE, 0x80] := ⟨by decide +kernel, by decide +kernel⟩
    exact hspends.atMost.mono (by decide +kernel)
  have htyped : Line.AtMost (fun _ => False) 1 (Line.write [0x10] faltering).2 := by
    have hspends : (Line.write [0x10] faltering).2.Spends [] := ⟨by decide +kernel, by simp⟩
    exact (hspends.atMost.mono (by decide +kernel)).offering fun _ => False.elim
  obtain ⟨hends, hopens, -, hconsole⟩ := run_ends {} .iacOpen [] faltering ({} : BoundedSink) (by simp)
    fun id c hi => (hawake id c hi).offering (by simp [Command.Offers])
  obtain ⟨-, -, hreads, -⟩ := run_ends { readCount := .times 2 } .read [] faltering ({} : BoundedSink) (by simp)
    fun id c hi => (hawake id c hi).offering (by simp [Command.Offers])
  refine ⟨hends, hopens .openIac rfl, by decide +kernel, fun rounds hr => ?_, hconsole console 0x10 1 never rfl htyped⟩
  obtain ⟨id, hi⟩ : ∃ id, (({ link := { line := faltering } } : Client ScriptedLine).initLink).1 = .ok id :=
    ⟨#v[1, 2, 3, 4], by decide +kernel⟩
  exact (hreads 2 id _ (.inl rfl) rfl (Prod.ext hi rfl) never works rounds hr).1

end Diagnostics
end MemsProbe
