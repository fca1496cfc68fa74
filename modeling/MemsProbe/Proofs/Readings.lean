/-
What a reading says of its frame, and its texts of the reading.

Both texts are a list of labelled values, cut by a character that stands in no
label and no value (`Unbroken`), so a text tells its list
(`report_inj`, `json_inj`) and the list its values. Of the values only the
gauges and the temperatures could hide something, for they are rounded. A step
of a temperature byte is nine fifths of a degree, just enough for a quotient
that is cut toward zero (`tdiv_lt_tdiv`), and a step of a gauge shows in six
decimals. So two frames have one report, or one line of JSON, just if they
agree on the bytes and bits that are read (`reading_tells`).
-/
import Mathlib
import MemsProbe.Proofs.Decimals
import MemsProbe.Proofs.Pieces
import MemsProbe.Reading.Report

namespace MemsProbe

/-- The frames agree on all that is read from them: nine bytes of values, a
bit for the idle switch, whether the byte of the other switch is zero, four
bits for faulty circuits, and where the valve stands. -/
structure Frame80.Agrees (f g : Frame80) : Prop where
  values : ∀ i : Fin Frame80.length, 1 ≤ i.val → i.val ≤ 9 → f[i] = g[i]
  idle : f[10].toNat.testBit 4 = g[10].toNat.testBit 4
  parkNeutral : f[12] = 0 ↔ g[12] = 0
  sensors : f[13].toNat.testBit 0 = g[13].toNat.testBit 0 ∧ f[13].toNat.testBit 1 = g[13].toNat.testBit 1
  circuits : f[14].toNat.testBit 1 = g[14].toNat.testBit 1 ∧ f[14].toNat.testBit 7 = g[14].toNat.testBit 7
  iac : f[18] = g[18]

/-- A gauge as the two texts give it: to the sixth decimal, and with the
fewest decimals that read back. -/
structure Binary32.Shown (x : Binary32) : Prop where
  inReport : Decimal (Reading.gaugeText x) (x.unitsAt 6) 6
  inJson : ∃ units places, Decimal x.shortest units places ∧ nearest units (10 ^ places) = x ∧
    ∀ fewer, 0 < fewer → fewer < places → x.readsBackAt fewer = false

namespace Reading

open Binary32 (Decimal Normal)

/-! ## Numbers -/

theorem repr_inj {n m : Nat} : n.repr = m.repr ↔ n = m := by
  refine ⟨fun h => ?_, fun h => h ▸ rfl⟩
  have hn := Numeral.writes_repr n
  rw [h] at hn
  exact hn.unique (Numeral.writes_repr m)

/-- A number without a sign is no number with one. -/
theorem repr_ne_neg (n : Nat) (s : String) : n.repr ≠ "-" ++ s := by
  intro h
  have hminus : '-' ∈ n.repr.toList := by simp [h]
  obtain ⟨d, hworth⟩ := (Numeral.writes_repr n).isWorth hminus
  exact hworth.ne rfl rfl

theorem int_repr_inj {a b : Int} : a.repr = b.repr ↔ a = b := by
  refine ⟨fun h => ?_, fun h => h ▸ rfl⟩
  cases a with
  | ofNat n =>
    cases b with
    | ofNat m => rw [repr_inj.1 h]
    | negSucc m => exact absurd h (repr_ne_neg n _)
  | negSucc n =>
    cases b with
    | ofNat m => exact absurd h.symm (repr_ne_neg m _)
    | negSucc m =>
      have hsucc := repr_inj.1 ((String.append_right_inj "-").1 h)
      rw [Nat.succ.inj hsucc]

theorem switchText_inj {a b : Bool} : switchText a = switchText b ↔ a = b := by
  cases a <;> cases b <;> decide

theorem boolText_inj {a b : Bool} : boolText a = boolText b ↔ a = b := by
  cases a <;> cases b <;> decide

/-- What rises with every step of a byte tells the byte. -/
theorem byte_inj {α : Type} [Preorder α] {f : Nat → α} (hrises : ∀ n m, n < m → m < 256 → f n < f m) {a b : UInt8} :
    f a.toNat = f b.toNat ↔ a = b := by
  refine ⟨fun heq => ?_, fun heq => heq ▸ rfl⟩
  rw [← UInt8.toNat_inj]
  rcases Nat.lt_trichotomy a.toNat b.toNat with hlt | hsame | hlt
  · exact absurd heq (hrises _ _ hlt b.toNat_lt).ne
  · exact hsame
  · exact absurd heq.symm (hrises _ _ hlt a.toNat_lt).ne

/-! ## Temperatures -/

/-- Quotients that are cut toward zero stay apart if the numbers are nine
apart: the nine from -4 to 4 have the quotient zero by five. -/
theorem tdiv_lt_tdiv {a b : Int} (h : a + 9 ≤ b) : a.tdiv 5 < b.tdiv 5 := by
  have hsign : Int.sign 5 = 1 := rfl
  rw [Int.tdiv_eq_ediv, Int.tdiv_eq_ediv, hsign]
  split <;> split <;> omega

theorem degreesF_inj {a b : UInt8} : degreesF a = degreesF b ↔ a = b := by
  refine byte_inj (f := fun n => (((n : Int) - 55) * 9).tdiv 5 + 32) fun n m hlt _ => ?_
  have hquotients := tdiv_lt_tdiv (a := ((n : Int) - 55) * 9) (b := ((m : Int) - 55) * 9) (by omega)
  exact Int.add_lt_add_right hquotients 32

/-! ## Gauges -/

/-- Every step of the byte shows in the sixth decimal. -/
def Rises (gauge : Nat → Binary32) : Prop :=
  ∀ n < 255, (gauge n).unitsAt 6 < (gauge (n + 1)).unitsAt 6

theorem ofNat_rises : Rises Binary32.ofNat := by
  unfold Rises
  decide +kernel

theorem battery_rises : Rises fun n => Binary32.nearest n 10 := by
  unfold Rises
  decide +kernel

theorem throttle_rises : Rises fun n => Binary32.times n throttleStep := by
  unfold Rises
  decide +kernel

theorem gaugeText_decimal (x : Binary32) : Decimal (gaugeText x) (x.unitsAt 6) 6 :=
  Binary32.decimalText_decimal (by decide) _

section

variable {gauge : Nat → Binary32} {a b : UInt8}

theorem Rises.units_inj (h : Rises gauge) : (gauge a.toNat).unitsAt 6 = (gauge b.toNat).unitsAt 6 ↔ a = b := by
  refine byte_inj (f := fun n => (gauge n).unitsAt 6) fun n m hlt hm => ?_
  induction hlt with
  | refl => exact h n (by omega)
  | step _ ih => exact Nat.lt_trans (ih (by omega)) (h _ (by omega))

theorem Rises.inj (h : Rises gauge) : gauge a.toNat = gauge b.toNat ↔ a = b :=
  ⟨fun heq => h.units_inj.1 (heq ▸ rfl), fun heq => heq ▸ rfl⟩

theorem Rises.text_inj (h : Rises gauge) : gaugeText (gauge a.toNat) = gaugeText (gauge b.toNat) ↔ a = b := by
  refine ⟨fun heq => ?_, fun heq => heq ▸ rfl⟩
  have hdecimal := gaugeText_decimal (gauge a.toNat)
  rw [heq] at hdecimal
  exact h.units_inj.1 (hdecimal.unique (gaugeText_decimal _)).1

end

theorem manifoldText_inj {a b : UInt8} :
    gaugeText (Binary32.ofNat a.toNat) = gaugeText (Binary32.ofNat b.toNat) ↔ a = b :=
  ofNat_rises.text_inj

theorem battery_inj {a b : UInt8} : battery a = battery b ↔ a = b :=
  battery_rises.inj

theorem batteryText_inj {a b : UInt8} : gaugeText (battery a) = gaugeText (battery b) ↔ a = b :=
  battery_rises.text_inj

theorem throttle_inj {a b : UInt8} : throttle a = throttle b ↔ a = b :=
  throttle_rises.inj

theorem throttleText_inj {a b : UInt8} : gaugeText (throttle a) = gaugeText (throttle b) ↔ a = b :=
  throttle_rises.text_inj

/-- All gauges are in the form that rounding gives them. -/
structure Gauged (r : Reading) : Prop where
  manifold : r.manifoldPressure.Normal
  battery : r.batteryVoltage.Normal
  throttle : r.throttlePotVoltage.Normal

theorem reading_gauged (f : Frame80) : f.reading.Gauged := by
  have hbyte : ∀ b : UInt8, b.toNat < 256 := fun b => b.toNat_lt
  have hstep : throttleStep = ⟨10737418, 29⟩ := by decide +kernel
  refine ⟨?_, ?_, ?_⟩
  · have hvalue := hbyte f[7]
    exact Binary32.nearest_normal (by decide) (by omega)
  · have hvalue := hbyte f[8]
    exact Binary32.nearest_normal (by decide) (by omega)
  · have hvalue := hbyte f[9]
    have hsmall : f[9].toNat * throttleStep.significand < 2 ^ 24 * 2 ^ throttleStep.places := by
      rw [hstep]
      dsimp only
      omega
    exact Binary32.nearest_normal (Nat.two_pow_pos _) hsmall

/-! ## Rows -/

/-- The text can stand between line ends and between commas. -/
def Unbroken (s : String) : Prop :=
  ∀ c ∈ s.toList, c ≠ '\n' ∧ c ≠ ','

theorem Unbroken.append {s t : String} (hs : Unbroken s) (ht : Unbroken t) : Unbroken (s ++ t) := by
  intro c hc
  rw [String.toList_append, List.mem_append] at hc
  exact hc.elim (hs c) (ht c)

instance (s : String) : Decidable (Unbroken s) :=
  decidable_of_iff (s.toList.all (fun c => c != '\n' && c != ',') = true) (by simp [Unbroken])

theorem isWorth_unbroken {c : Char} {d : Nat} (h : Numeral.IsWorth c d) : c ≠ '\n' ∧ c ≠ ',' :=
  ⟨h.ne rfl, h.ne rfl⟩

theorem repr_unbroken (n : Nat) : Unbroken n.repr := by
  intro c hc
  obtain ⟨d, hworth⟩ := (Numeral.writes_repr n).isWorth hc
  exact isWorth_unbroken hworth

theorem int_repr_unbroken (a : Int) : Unbroken a.repr := by
  cases a with
  | ofNat n => exact repr_unbroken n
  | negSucc n => exact Unbroken.append (by decide) (repr_unbroken (n + 1))

theorem decimal_unbroken {text : String} {units places : Nat} (h : Decimal text units places) : Unbroken text := by
  intro c hc
  rcases h.chars hc with rfl | ⟨d, hworth⟩
  · decide
  · exact isWorth_unbroken hworth

theorem switchText_unbroken (on : Bool) : Unbroken (switchText on) := by
  cases on <;> decide

theorem boolText_unbroken (b : Bool) : Unbroken (boolText b) := by
  cases b <;> decide

theorem reportRows_unbroken (r : Reading) : ∀ row ∈ r.reportRows, Unbroken row.1 ∧ Unbroken row.2 := by
  have hlabels : ∀ row ∈ r.reportRows, Unbroken row.1 := by
    simp only [reportRows, List.forall_mem_cons, List.not_mem_nil, false_imp_iff, implies_true, and_true]
    decide
  have hvalues : ∀ row ∈ r.reportRows, Unbroken row.2 := by
    simp only [reportRows, List.forall_mem_cons, List.not_mem_nil, false_imp_iff, implies_true, and_true,
      repr_unbroken, int_repr_unbroken, decimal_unbroken (gaugeText_decimal _), switchText_unbroken]
  exact fun row hrow => ⟨hlabels row hrow, hvalues row hrow⟩

theorem jsonMembers_unbroken {r : Reading} (hr : r.Gauged) :
    ∀ row ∈ r.jsonMembers, Unbroken row.1 ∧ Unbroken row.2 := by
  have hshortest : ∀ {x : Binary32}, x.Normal → Unbroken x.shortest := by
    intro x hx
    obtain ⟨_, _, hdecimal, -⟩ := hx.shortest_reads_back
    exact decimal_unbroken hdecimal
  have hlabels : ∀ row ∈ r.jsonMembers, Unbroken row.1 := by
    simp only [jsonMembers, List.forall_mem_cons, List.not_mem_nil, false_imp_iff, implies_true, and_true]
    decide
  have hvalues : ∀ row ∈ r.jsonMembers, Unbroken row.2 := by
    simp only [jsonMembers, List.forall_mem_cons, List.not_mem_nil, false_imp_iff, implies_true, and_true,
      repr_unbroken, int_repr_unbroken, hshortest hr.manifold, hshortest hr.battery, hshortest hr.throttle,
      boolText_unbroken]
  exact fun row hrow => ⟨hlabels row hrow, hvalues row hrow⟩

/-- Rows that are labelled alike are known from the way they are written. -/
theorem rows_inj {write : String × String → String} {rows others : List (String × String)}
    (hwrite : ∀ {label value value' : String}, write (label, value) = write (label, value') → value = value')
    (hlabels : rows.map Prod.fst = others.map Prod.fst) (h : rows.map write = others.map write) : rows = others := by
  induction rows generalizing others with
  | nil => exact (List.map_eq_nil_iff.1 hlabels.symm).symm
  | cons row rows ih =>
    cases others with
    | nil => cases hlabels
    | cons other others =>
      obtain ⟨label, value⟩ := row
      obtain ⟨label', value'⟩ := other
      simp only [List.map_cons, List.cons.injEq] at hlabels h
      obtain ⟨rfl, hlabels⟩ := hlabels
      rw [hwrite h.1, ih hlabels h.2]

/-- Unbroken texts are known from the text that they are put together to. -/
theorem texts_inj {sep : Char} {texts others : List String} (hsep : ¬ (sep ≠ '\n' ∧ sep ≠ ','))
    (hne : texts ≠ []) (hne' : others ≠ []) (h : ∀ text ∈ texts, Unbroken text) (h' : ∀ text ∈ others, Unbroken text)
    (heq : [sep].intercalate (texts.map String.toList) = [sep].intercalate (others.map String.toList)) :
    texts = others := by
  have hclean : ∀ {texts : List String}, (∀ text ∈ texts, Unbroken text) →
      ∀ piece ∈ texts.map String.toList, sep ∉ piece := by
    intro texts h piece hpiece hmem
    obtain ⟨text, htext, rfl⟩ := List.mem_map.1 hpiece
    exact hsep (h text htext sep hmem)
  have hsame := Text.intercalate_inj (by simpa using hne) (by simpa using hne') (hclean h) (hclean h') heq
  rwa [List.map_inj_right fun _ _ => String.toList_inj.1] at hsame

/-! ## Texts -/

/-- The lines of the report. -/
def reportLines (r : Reading) : List String :=
  r.reportRows.map (fun row => row.1 ++ ": " ++ row.2) ++ ["-------------"]

theorem toList_report (r : Reading) : r.report.toList = ['\n'].intercalate (r.reportLines.map String.toList) := by
  rw [report, String.toList_append, String.toList_join, reportLines, List.map_append, List.map_singleton,
    ← Text.closed_append '\n']
  simp only [List.flatMap_map, rowText, String.toList_append]
  rfl

theorem reportLines_unbroken (r : Reading) : ∀ line ∈ r.reportLines, Unbroken line := by
  intro line hline
  rcases List.mem_append.1 hline with hline | hline
  · obtain ⟨row, hrow, rfl⟩ := List.mem_map.1 hline
    obtain ⟨hlabel, hvalue⟩ := reportRows_unbroken r row hrow
    exact (hlabel.append (by decide)).append hvalue
  · rw [List.mem_singleton.1 hline]
    decide

/-- The report tells its rows. -/
theorem report_inj {r s : Reading} : r.report = s.report ↔ r.reportRows = s.reportRows := by
  refine ⟨fun h => ?_, fun h => by rw [report, report, h]⟩
  have hne : ∀ r : Reading, r.reportLines ≠ [] := by simp [reportLines]
  have htext := congrArg String.toList h
  rw [toList_report, toList_report] at htext
  have hlines := texts_inj (by decide) (hne r) (hne s) (reportLines_unbroken r) (reportLines_unbroken s) htext
  have hrows := List.append_cancel_right hlines
  have hlabels : r.reportRows.map Prod.fst = s.reportRows.map Prod.fst := by
    simp only [reportRows, List.map_cons, List.map_nil]
  exact rows_inj (fun hrow => (String.append_right_inj _).1 hrow) hlabels hrows

theorem memberText_unbroken {r : Reading} (hr : r.Gauged) : ∀ text ∈ r.jsonMembers.map memberText, Unbroken text := by
  intro text htext
  obtain ⟨member, hmember, rfl⟩ := List.mem_map.1 htext
  obtain ⟨hname, hvalue⟩ := jsonMembers_unbroken hr member hmember
  exact ((Unbroken.append (by decide) hname).append (by decide)).append hvalue

/-- The line of JSON tells its members. -/
theorem json_inj {r s : Reading} (hr : r.Gauged) (hs : s.Gauged) : r.json = s.json ↔ r.jsonMembers = s.jsonMembers := by
  refine ⟨fun h => ?_, fun h => by rw [json, json, h]⟩
  have hne : ∀ r : Reading, r.jsonMembers.map memberText ≠ [] := by simp [jsonMembers]
  rw [json, json, objectText, objectText, String.append_left_inj, String.append_right_inj] at h
  have htext := congrArg String.toList h
  rw [String.toList_intercalate, String.toList_intercalate] at htext
  have hmembers := texts_inj (by decide) (hne r) (hne s) (memberText_unbroken hr) (memberText_unbroken hs) htext
  have hnames : r.jsonMembers.map Prod.fst = s.jsonMembers.map Prod.fst := by
    simp only [jsonMembers, List.map_cons, List.map_nil]
  exact rows_inj (fun hmember => (String.append_right_inj _).1 hmember) hnames hmembers

/-! ## Frames -/

theorem rpm_inj {a b a' b' : UInt8} :
    256 * a.toNat + b.toNat = 256 * a'.toNat + b'.toNat ↔ a = a' ∧ b = b' := by
  have hb : b.toNat < 256 := b.toNat_lt
  have hb' : b'.toNat < 256 := b'.toNat_lt
  rw [← UInt8.toNat_inj, ← UInt8.toNat_inj]
  omega

theorem nonzero_inj {a b : UInt8} : (a != 0) = (b != 0) ↔ (a = 0 ↔ b = 0) := by
  rw [Bool.eq_iff_iff, bne_iff_ne, bne_iff_ne, not_iff_not]

theorem faults_inj {a a' b b' : UInt8} :
    faults a b = faults a' b' ↔
      (bit a 0 = bit a' 0 ∧ bit a 1 = bit a' 1) ∧ bit b 1 = bit b' 1 ∧ bit b 7 = bit b' 7 := by
  have hall : ∀ p q r s p' q' r' s' : Bool,
      p.toNat + 2 * q.toNat + 4 * r.toNat + 8 * s.toNat = p'.toNat + 2 * q'.toNat + 4 * r'.toNat + 8 * s'.toNat ↔
        (p = p' ∧ q = q') ∧ r = r' ∧ s = s' := by
    decide
  exact hall _ _ _ _ _ _ _ _

/-- The members tell the reading. -/
theorem jsonMembers_inj {r s : Reading} (hr : r.Gauged) (hs : s.Gauged) : r.jsonMembers = s.jsonMembers ↔ r = s := by
  cases r
  cases s
  simp only [jsonMembers, List.cons.injEq, Prod.mk.injEq, true_and, and_true, Reading.mk.injEq, repr_inj, int_repr_inj,
    hr.manifold.shortest_inj hs.manifold, hr.battery.shortest_inj hs.battery, hr.throttle.shortest_inj hs.throttle,
    boolText_inj, UInt8.toNat_inj]

end Reading

namespace Frame80

open Reading

variable {f g : Frame80}

theorem values_iff :
    (∀ i : Fin Frame80.length, 1 ≤ i.val → i.val ≤ 9 → f[i] = g[i]) ↔
      (f[1] = g[1] ∧ f[2] = g[2]) ∧ f[3] = g[3] ∧ f[4] = g[4] ∧ f[5] = g[5] ∧ f[6] = g[6] ∧ f[7] = g[7] ∧
        f[8] = g[8] ∧ f[9] = g[9] := by
  constructor
  · intro h
    have hat : ∀ i (hi : i < Frame80.length), 1 ≤ i ∧ i ≤ 9 → f[i] = g[i] := fun i hi hin => h ⟨i, hi⟩ hin.1 hin.2
    exact ⟨⟨hat 1 (by decide) (by decide), hat 2 (by decide) (by decide)⟩, hat 3 (by decide) (by decide),
      hat 4 (by decide) (by decide), hat 5 (by decide) (by decide), hat 6 (by decide) (by decide),
      hat 7 (by decide) (by decide), hat 8 (by decide) (by decide), hat 9 (by decide) (by decide)⟩
  · rintro ⟨⟨h₁, h₂⟩, h₃, h₄, h₅, h₆, h₇, h₈, h₉⟩ ⟨i, hi⟩ hmin hmax
    interval_cases i <;> assumption

theorem reading_eq_iff : f.reading = g.reading ↔ f.Agrees g := by
  have hvalues := values_iff (f := f) (g := g)
  simp only [Frame80.reading, Reading.mk.injEq, rpm_inj, degreesF_inj, ofNat_rises.inj, battery_inj, throttle_inj,
    nonzero_inj, faults_inj, bit]
  constructor
  · rintro ⟨hrpm, h₃, h₄, h₅, h₆, h₇, h₈, h₉, hidle, hpark, ⟨hsensors, hcircuits⟩, hiac⟩
    exact ⟨hvalues.2 ⟨hrpm, h₃, h₄, h₅, h₆, h₇, h₈, h₉⟩, hidle, hpark, hsensors, hcircuits, hiac⟩
  · rintro ⟨h, hidle, hpark, hsensors, hcircuits, hiac⟩
    obtain ⟨hrpm, h₃, h₄, h₅, h₆, h₇, h₈, h₉⟩ := hvalues.1 h
    exact ⟨hrpm, h₃, h₄, h₅, h₆, h₇, h₈, h₉, hidle, hpark, ⟨hsensors, hcircuits⟩, hiac⟩

/-- The rows of the report tell the reading of a frame. -/
theorem reportRows_inj : f.reading.reportRows = g.reading.reportRows ↔ f.reading = g.reading := by
  simp only [Frame80.reading, reportRows, List.cons.injEq, Prod.mk.injEq, true_and, and_true, Reading.mk.injEq, repr_inj,
    int_repr_inj, manifoldText_inj, batteryText_inj, throttleText_inj, ofNat_rises.inj, battery_inj, throttle_inj,
    switchText_inj, UInt8.toNat_inj]

end Frame80

theorem Binary32.Normal.shown {x : Binary32} (h : x.Normal) : x.Shown :=
  ⟨Reading.gaugeText_decimal x, h.shortest_reads_back⟩

/-- **A reading tells what is read, and each of its texts tells the reading.**
Two frames have one reading, one report or one line of JSON, each just if they
agree on the bytes and bits that are read. The texts give a gauge as the
decimals they promise. -/
theorem Frame80.reading_tells (f g : Frame80) :
    [f.reading = g.reading, f.reading.report = g.reading.report, f.reading.json = g.reading.json, f.Agrees g].TFAE ∧
      f.reading.manifoldPressure.Shown ∧ f.reading.batteryVoltage.Shown ∧ f.reading.throttlePotVoltage.Shown := by
  have hf := Reading.reading_gauged f
  have hg := Reading.reading_gauged g
  have hreport : f.reading.report = g.reading.report ↔ f.reading = g.reading := Reading.report_inj.trans reportRows_inj
  have hjson : f.reading.json = g.reading.json ↔ f.reading = g.reading :=
    (Reading.json_inj hf hg).trans (Reading.jsonMembers_inj hf hg)
  refine ⟨?_, hf.manifold.shown, hf.battery.shown, hf.throttle.shown⟩
  tfae_have 2 ↔ 1 := hreport
  tfae_have 3 ↔ 1 := hjson
  tfae_have 1 ↔ 4 := reading_eq_iff
  tfae_finish

end MemsProbe
