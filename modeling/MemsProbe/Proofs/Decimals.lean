/-
What the decimal texts of a number say.

A decimal is two rows of digits with a point between them, and says how many
units of its last place it stands for. It says so in one way only
(`Decimal.unique`), so a text with a set number of decimals tells the units
that it was made from.

The shortest text tells the number itself. Rounding depends on the value of a
quotient alone (`nearest_scale`), so a number that rounding gives is its own
rounding (`Normal.nearest_self`). With as many decimals as binary places a
decimal is exact and reads back, hence the search ends at a decimal that does
(`Normal.shortest_reads_back`).
-/
import Mathlib
import MemsProbe.Binary32.Text
import MemsProbe.Proofs.Numerals

namespace MemsProbe

open Numeral (Writes)

/-! ## Rounded quotients -/

theorem roundDiv_cases (num den : Nat) : roundDiv num den = num / den ∨ roundDiv num den = num / den + 1 := by
  unfold roundDiv
  dsimp only
  split
  · exact .inl rfl
  · split
    · exact .inr rfl
    · omega

/-- A whole quotient is not rounded. -/
theorem roundDiv_mul {den : Nat} (hden : 0 < den) (q : Nat) : roundDiv (q * den) den = q := by
  unfold roundDiv
  dsimp only
  rw [Nat.mul_mod_left, Nat.mul_div_cancel q hden, if_pos (by omega)]

theorem roundDiv_scale {k : Nat} (hk : 0 < k) (num den : Nat) : roundDiv (num * k) (den * k) = roundDiv num den := by
  unfold roundDiv
  dsimp only
  have hr : 2 * (num % den * k) = 2 * (num % den) * k := (Nat.mul_assoc 2 (num % den) k).symm
  have hbelow : 2 * (num % den) * k < den * k ↔ 2 * (num % den) < den := Nat.mul_lt_mul_right hk
  have habove : den * k < 2 * (num % den) * k ↔ den < 2 * (num % den) := Nat.mul_lt_mul_right hk
  simp only [Nat.mul_div_mul_right num den hk, Nat.mul_mod_mul_right, hr, hbelow, habove]

namespace Binary32

/-! ## Places -/

/-- With more binary places a number is at least twice as large. -/
theorem two_mul_shift_le {q p : Nat} (hq : q < p) (n : Nat) : 2 * (n * 2 ^ q) ≤ n * 2 ^ p := by
  have hpow : 2 ^ (q + 1) ≤ 2 ^ p := Nat.pow_le_pow_right (by decide) hq
  have hmul := Nat.mul_le_mul_left n hpow
  rw [Nat.pow_succ, ← Nat.mul_assoc] at hmul
  omega

/-- The least number of binary places with which the whole part of a quotient
has all the significant digits. -/
structure IsPlaces (num den p : Nat) : Prop where
  enough : 2 ^ 23 * den ≤ num * 2 ^ p
  least : ∀ q < p, num * 2 ^ q < 2 ^ 23 * den

theorem IsPlaces.unique {num den p q : Nat} (hp : IsPlaces num den p) (hq : IsPlaces num den q) : p = q := by
  rcases Nat.lt_trichotomy p q with h | h | h
  · exact absurd hp.enough (Nat.not_le_of_lt (hq.least p h))
  · exact h
  · exact absurd hq.enough (Nat.not_le_of_lt (hp.least q h))

/-- A quotient that is too small with one place less has no digit too many. -/
theorem IsPlaces.lt {num den p : Nat} (h : IsPlaces num den p) (hlt : num < 2 ^ 24 * den) :
    num * 2 ^ p < 2 ^ 24 * den := by
  cases p with
  | zero => simpa using hlt
  | succ p =>
    have hless := h.least p (Nat.lt_succ_self p)
    rw [Nat.pow_succ, ← Nat.mul_assoc]
    omega

/-- A number with binary places added has as many digits more. -/
theorem shift_bounds {num : Nat} (hnum : 0 < num) (p : Nat) :
    2 ^ (num.log2 + p) ≤ num * 2 ^ p ∧ num * 2 ^ p < 2 * 2 ^ (num.log2 + p) := by
  have hlower := Nat.mul_le_mul_right (2 ^ p) (Nat.log2_self_le (Nat.pos_iff_ne_zero.mp hnum))
  have hupper := Nat.mul_lt_mul_of_pos_right (Nat.lt_log2_self (n := num)) (Nat.two_pow_pos p)
  rw [Nat.pow_succ', Nat.mul_assoc] at hupper
  rw [Nat.pow_add]
  exact ⟨hlower, hupper⟩

theorem placesFor_isPlaces {num den : Nat} (hnum : 0 < num) (hden : 0 < den) :
    IsPlaces num den (placesFor num den) := by
  obtain ⟨hden₁, hden₂⟩ := shift_bounds hden 23
  rw [Nat.add_comm] at hden₁ hden₂
  unfold placesFor precision
  simp only [Nat.pow_eq, Nat.add_one_sub_one]
  by_cases hlarge : 23 + den.log2 < num.log2
  -- The quotient is large enough without any places.
  · have hpow : 2 ^ (23 + den.log2 + 1) ≤ 2 ^ num.log2 := Nat.pow_le_pow_right (by decide) hlarge
    have hnum₁ := Nat.log2_self_le (Nat.pos_iff_ne_zero.mp hnum)
    have hzero : 23 + den.log2 - num.log2 = 0 := by omega
    rw [hzero, if_neg (by omega)]
    exact ⟨by omega, by omega⟩
  · generalize hp : 23 + den.log2 - num.log2 = p
    have hlog : num.log2 + p = 23 + den.log2 := by omega
    obtain ⟨hnum₁, hnum₂⟩ := shift_bounds hnum p
    rw [hlog] at hnum₁ hnum₂
    split
    next hshort =>
      refine ⟨?_, fun q hq => ?_⟩
      · have hdouble := two_mul_shift_le (Nat.lt_add_one p) num
        omega
      · rcases Nat.lt_succ_iff_lt_or_eq.1 hq with hq | rfl
        · have hhalf := two_mul_shift_le hq num
          omega
        · exact hshort
    next hfull =>
      refine ⟨by omega, fun q hq => ?_⟩
      have hhalf := two_mul_shift_le hq num
      omega

theorem IsPlaces.scale {num den p k : Nat} (h : IsPlaces num den p) (hk : 0 < k) :
    IsPlaces (num * k) (den * k) p where
  enough := by
    rw [Nat.mul_right_comm num k, ← Nat.mul_assoc]
    exact Nat.mul_le_mul_right k h.enough
  least q hq := by
    rw [Nat.mul_right_comm num k, ← Nat.mul_assoc]
    exact Nat.mul_lt_mul_of_pos_right (h.least q hq) hk

/-! ## Rounding -/

theorem nearest_of_pos {num : Nat} (hnum : 0 < num) (den : Nat) :
    nearest num den =
      if roundDiv (num * 2 ^ placesFor num den) den = 2 ^ 24 then ⟨2 ^ 23, placesFor num den - 1⟩
      else ⟨roundDiv (num * 2 ^ placesFor num den) den, placesFor num den⟩ :=
  if_neg hnum.ne'

/-- Rounding depends on the value of a quotient alone. -/
theorem nearest_scale {den k : Nat} (hden : 0 < den) (hk : 0 < k) (num : Nat) :
    nearest (num * k) (den * k) = nearest num den := by
  rcases Nat.eq_zero_or_pos num with rfl | hnum
  · rw [Nat.zero_mul, nearest, nearest, if_pos rfl, if_pos rfl]
  · have hplaces : placesFor (num * k) (den * k) = placesFor num den :=
      (placesFor_isPlaces (Nat.mul_pos hnum hk) (Nat.mul_pos hden hk)).unique ((placesFor_isPlaces hnum hden).scale hk)
    rw [nearest_of_pos (Nat.mul_pos hnum hk), nearest_of_pos hnum, hplaces, Nat.mul_right_comm num k,
      roundDiv_scale hk]

/-- A number in the form that rounding gives it: all its significant digits
are there. -/
def Normal (x : Binary32) : Prop :=
  x = ⟨0, 0⟩ ∨ 2 ^ 23 ≤ x.significand ∧ x.significand < 2 ^ 24

theorem nearest_normal {num den : Nat} (hden : 0 < den) (h : num < 2 ^ 24 * den) : Normal (nearest num den) := by
  rcases Nat.eq_zero_or_pos num with rfl | hnum
  · exact .inl (if_pos rfl)
  · have hplaces := placesFor_isPlaces hnum hden
    have hlower : 2 ^ 23 ≤ num * 2 ^ placesFor num den / den := (Nat.le_div_iff_mul_le hden).2 hplaces.enough
    have hupper : num * 2 ^ placesFor num den / den < 2 ^ 24 := (Nat.div_lt_iff_lt_mul hden).2 (hplaces.lt h)
    have hround := roundDiv_cases (num * 2 ^ placesFor num den) den
    rw [nearest_of_pos hnum]
    split
    next => exact .inr ⟨Nat.le_refl _, Nat.pow_lt_pow_right (by decide) (by decide)⟩
    next hcarry =>
      refine .inr ⟨?_, ?_⟩
      · dsimp only
        omega
      · dsimp only
        omega

/-- A number in normal form is its own rounding. -/
theorem Normal.nearest_self {x : Binary32} (h : x.Normal) : nearest x.significand (2 ^ x.places) = x := by
  rcases h with rfl | ⟨hlower, hupper⟩
  · rfl
  · have hpos : 0 < 2 ^ x.places := Nat.two_pow_pos x.places
    have hsome : 0 < x.significand := by omega
    have hself : IsPlaces x.significand (2 ^ x.places) x.places := by
      refine ⟨Nat.mul_le_mul_right _ hlower, fun q hq => ?_⟩
      have hhalf := two_mul_shift_le hq x.significand
      have hfull : x.significand * 2 ^ x.places < 2 ^ 24 * 2 ^ x.places := Nat.mul_lt_mul_of_pos_right hupper hpos
      omega
    have hplaces := (placesFor_isPlaces hsome hpos).unique hself
    rw [nearest_of_pos hsome, hplaces, roundDiv_mul hpos, if_neg (by omega)]

/-! ## Decimals -/

/-- With as many decimals as binary places nothing is rounded. -/
theorem unitsAt_places (x : Binary32) : x.unitsAt x.places = x.significand * 5 ^ x.places := by
  have hten : x.significand * 10 ^ x.places = x.significand * 5 ^ x.places * 2 ^ x.places := by
    rw [Nat.mul_assoc, ← Nat.mul_pow]
  rw [unitsAt]
  simp only [Nat.pow_eq]
  rw [hten, roundDiv_mul (Nat.two_pow_pos x.places)]

theorem readsBackAt_iff {x : Binary32} {decimals : Nat} :
    x.readsBackAt decimals = true ↔ nearest (x.unitsAt decimals) (10 ^ decimals) = x :=
  beq_iff_eq

theorem Normal.readsBackAt_places {x : Binary32} (h : x.Normal) : x.readsBackAt x.places = true := by
  have hten : 10 ^ x.places = 2 ^ x.places * 5 ^ x.places := by rw [← Nat.mul_pow]
  rw [readsBackAt_iff, unitsAt_places, hten, nearest_scale (Nat.two_pow_pos x.places) (Nat.pow_pos (by decide)),
    h.nearest_self]

/-- The search ends at a number of decimals that reads back, if the last one
does, and at the first. -/
theorem fewestFrom_least {x : Binary32} {more decimals : Nat} (h : x.readsBackAt (decimals + more) = true) :
    x.readsBackAt (x.fewestFrom more decimals) = true ∧
      ∀ fewer, decimals ≤ fewer → fewer < x.fewestFrom more decimals → x.readsBackAt fewer = false := by
  induction more generalizing decimals with
  | zero => exact ⟨h, fun fewer hle hlt => absurd hlt (Nat.not_lt_of_le hle)⟩
  | succ more ih =>
    rw [fewestFrom]
    split
    next hback => exact ⟨hback, fun fewer hle hlt => absurd hlt (Nat.not_lt_of_le hle)⟩
    next hnot =>
      have hlast : x.readsBackAt (decimals + 1 + more) = true := by rwa [Nat.add_right_comm]
      obtain ⟨hback, hleast⟩ := ih hlast
      refine ⟨hback, fun fewer hle hlt => ?_⟩
      rcases Nat.eq_or_lt_of_le hle with rfl | hlt'
      · exact Bool.eq_false_iff.2 hnot
      · exact hleast fewer hlt' hlt

/-! ## Texts -/

/-- The text is a decimal: so many units of its last place. -/
inductive Decimal (text : String) : (units places : Nat) → Prop
  | mk : text.toList = whole ++ '.' :: fraction → whole ≠ [] → fraction ≠ [] →
      Writes 10 whole w → Writes 10 fraction f →
      Decimal text (w * 10 ^ fraction.length + f) fraction.length

theorem point_notMem {row : List Char} {n : Nat} (h : Writes 10 row n) : '.' ∉ row := by
  intro hmem
  obtain ⟨d, hworth⟩ := h.isWorth hmem
  exact hworth.ne rfl rfl

/-- A text is read as a decimal in one way. -/
theorem Decimal.unique {text : String} {units places units' places' : Nat} (h : Decimal text units places)
    (h' : Decimal text units' places') : units = units' ∧ places = places' := by
  cases h with
  | mk htext _ _ hw hf =>
    cases h' with
    | mk htext' _ _ hw' hf' =>
      have hpieces := htext.symm.trans htext'
      rw [List.append_cons_inj_of_notMem (point_notMem hw) (point_notMem hf)] at hpieces
      obtain ⟨rfl, -, rfl⟩ := hpieces
      rw [hw.unique hw', hf.unique hf']
      exact ⟨rfl, rfl⟩

theorem Decimal.chars {text : String} {units places : Nat} (h : Decimal text units places) {c : Char}
    (hc : c ∈ text.toList) : c = '.' ∨ ∃ d, Numeral.IsWorth c d := by
  cases h with
  | mk htext _ _ hw hf =>
    rw [htext, List.mem_append, List.mem_cons] at hc
    rcases hc with hc | hc | hc
    · exact .inr (hw.isWorth hc)
    · exact .inl hc
    · exact .inr (hf.isWorth hc)

theorem decimalText_decimal {places : Nat} (hpos : 0 < places) (units : Nat) :
    Decimal (decimalText units places) units places := by
  have hlt : units % 10 ^ places < 10 ^ places := Nat.mod_lt _ (Nat.pow_pos (by decide))
  have hshort : (units % 10 ^ places).repr.length ≤ places := (Nat.length_repr_le_iff hpos).2 hlt
  have hfraction :=
    (Numeral.writes_repr (units % 10 ^ places)).zeros (by decide) (places - (units % 10 ^ places).repr.length)
  generalize hrow : List.replicate (places - (units % 10 ^ places).repr.length) '0' ++
    (units % 10 ^ places).repr.toList = row at hfraction
  have hlength : row.length = places := by
    rw [← hrow, List.length_append, List.length_replicate, String.length_toList]
    omega
  have htext : (decimalText units places).toList = (units / 10 ^ places).repr.toList ++ '.' :: row := by
    rw [← hrow, decimalText]
    simp [Nat.pow_eq]
  have hne : row ≠ [] := List.ne_nil_of_length_pos (by omega)
  have hall := Decimal.mk htext (Numeral.repr_ne_nil _) hne (Numeral.writes_repr _) hfraction
  rwa [hlength, Nat.div_add_mod'] at hall

/-- A whole number with one decimal zero. -/
theorem whole_decimal (units : Nat) : Decimal (units.repr ++ ".0") (units * 10) 1 := by
  have htext : (units.repr ++ ".0").toList = units.repr.toList ++ '.' :: ['0'] := by
    rw [String.toList_append]
    rfl
  have hzero : Writes 10 ['0'] 0 := Numeral.writes_toDigits (by decide) (by decide) 0
  exact Decimal.mk htext (Numeral.repr_ne_nil units) (by simp) (Numeral.writes_repr units) hzero

/-- **The shortest text reads back.** It is a decimal whose nearest number is
the number that it was made from, and the nearest decimals with fewer places
are not. -/
theorem Normal.shortest_reads_back {x : Binary32} (h : x.Normal) :
    ∃ units places, Decimal x.shortest units places ∧ nearest units (10 ^ places) = x ∧
      ∀ fewer, 0 < fewer → fewer < places → x.readsBackAt fewer = false := by
  have hlast : x.readsBackAt (0 + x.places) = true := by
    rw [Nat.zero_add]
    exact h.readsBackAt_places
  obtain ⟨hback, hleast⟩ := fewestFrom_least hlast
  rw [shortest]
  split
  next hzero =>
    rw [hzero, readsBackAt_iff] at hback
    refine ⟨_, _, whole_decimal (x.unitsAt 0), ?_, fun fewer hpos hlt => absurd hlt (by omega)⟩
    have hscale : nearest (x.unitsAt 0 * 10) (1 * 10) = nearest (x.unitsAt 0) 1 :=
      nearest_scale (by decide) (by decide) _
    exact hscale.trans hback
  next decimals hsome =>
    have hpos : 0 < x.fewestFrom x.places 0 := Nat.pos_of_ne_zero hsome
    exact ⟨_, _, decimalText_decimal hpos (x.unitsAt _), readsBackAt_iff.1 hback,
      fun fewer _ hlt => hleast fewer (Nat.zero_le fewer) hlt⟩

theorem Normal.shortest_inj {x y : Binary32} (hx : x.Normal) (hy : y.Normal) : x.shortest = y.shortest ↔ x = y := by
  refine ⟨fun heq => ?_, fun heq => heq ▸ rfl⟩
  obtain ⟨units, places, hdecimal, hback, -⟩ := hx.shortest_reads_back
  obtain ⟨units', places', hdecimal', hback', -⟩ := hy.shortest_reads_back
  rw [heq] at hdecimal
  obtain ⟨rfl, rfl⟩ := hdecimal.unique hdecimal'
  exact hback.symm.trans hback'

end Binary32
end MemsProbe
