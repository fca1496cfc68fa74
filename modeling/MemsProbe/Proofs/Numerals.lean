/-
Rows of digits and the numbers that they write.

`Writes base row n` says which number a row writes, without a bound and
without a reader: every digit added at the end of a row takes what is before
it one place up. A row writes one number at most, and zeros before it are
nothing to it. Reading a row with a limit is finding that number if it is
below the limit, and failing for its size otherwise (`Writes.readFrom`).

A text that is no such row, or writes too large a number, is refused for the
fault that comes first in it (`Fails`). A plus sign may stand before a row
(`Spells`). With that, what the reader says of any text is known
(`read_eq_ok_iff`, `read_eq_error_iff`).
-/
import Mathlib.Data.List.Induction
import Mathlib.Data.List.TakeWhile
import MemsProbe.Text.Blank
import MemsProbe.Text.Numeral

namespace MemsProbe.Numeral

/-- The digits, each in the place of its worth. -/
def smallDigits : List Char :=
  ['0', '1', '2', '3', '4', '5', '6', '7', '8', '9', 'a', 'b', 'c', 'd', 'e', 'f']

/-- The same with capitals. -/
def largeDigits : List Char :=
  ['0', '1', '2', '3', '4', '5', '6', '7', '8', '9', 'A', 'B', 'C', 'D', 'E', 'F']

/-- The character is a digit of this worth. -/
def IsWorth (c : Char) (d : Nat) : Prop :=
  smallDigits[d]? = some c ∨ largeDigits[d]? = some c

/-- The row of digits writes the number. -/
inductive Writes (base : Nat) : List Char → Nat → Prop
  | nil : Writes base [] 0
  | snoc : Writes base row n → IsWorth c d → d < base → Writes base (row ++ [c]) (n * base + d)

/-- What is wrong with a text that should be a row of digits of a number below
the limit: the fault that comes first in it. -/
inductive Fails (base limit : Nat) : List Char → Fault → Prop
  | empty : Fails base limit [] .empty
  | notADigit : Writes base row n → n < limit → (∀ d < base, ¬ IsWorth c d) →
      Fails base limit (row ++ c :: rest) .notADigit
  | tooLarge : Writes base row n → limit ≤ n → Fails base limit (row ++ rest) .tooLarge

/-- The text without the plus sign that it may begin with. A sign on its own
is none. -/
inductive Unsigned : List Char → List Char → Prop
  | plus : row ≠ [] → Unsigned ('+' :: row) row
  | bare : (∀ row, row ≠ [] → body ≠ '+' :: row) → Unsigned body body

/-- The text is a number with at most one plus sign before its digits. -/
inductive Spells (base : Nat) : List Char → Nat → Prop
  | bare : row ≠ [] → Writes base row n → Spells base row n
  | signed : row ≠ [] → Writes base row n → Spells base ('+' :: row) n

/-! ## Digits -/

theorem IsWorth.lt_sixteen {c : Char} {d : Nat} (h : IsWorth c d) : d < 16 := by
  rcases h with h | h
  · exact (List.getElem?_eq_some_iff.1 h).1
  · exact (List.getElem?_eq_some_iff.1 h).1

/-- A digit is no blank, no sign and no letter of a mark. -/
theorem IsWorth.not_special {c : Char} {d : Nat} (h : IsWorth c d) :
    Text.isBlank c = false ∧ c ≠ '+' ∧ c ≠ '-' ∧ c ≠ 'x' ∧ c ≠ 'X' := by
  have hall : (smallDigits ++ largeDigits).all
      (fun c => !Text.isBlank c && c != '+' && c != '-' && c != 'x' && c != 'X') = true := by
    decide
  have hmem : c ∈ smallDigits ++ largeDigits := by
    rw [List.mem_append]
    rcases h with h | h
    · exact .inl (List.mem_of_getElem? h)
    · exact .inr (List.mem_of_getElem? h)
  simpa [and_assoc] using List.all_eq_true.1 hall c hmem

theorem digitValue_of_isWorth {c : Char} {d : Nat} (h : IsWorth c d) : digitValue c = some d := by
  have hd := h.lt_sixteen
  have hall : ∀ d < 16, smallDigits[d]?.bind digitValue = some d ∧ largeDigits[d]?.bind digitValue = some d := by
    decide
  obtain ⟨hsmall, hlarge⟩ := hall d hd
  rcases h with h | h
  · rwa [h] at hsmall
  · rwa [h] at hlarge

/-- A character without a worth is no digit. -/
theorem IsWorth.ne {b c : Char} {d : Nat} (h : IsWorth c d) (hb : digitValue b = none) : c ≠ b := by
  rintro rfl
  rw [digitValue_of_isWorth h] at hb
  cases hb

theorem isWorth_of_digitValue {c : Char} {d : Nat} (h : digitValue c = some d) : IsWorth c d := by
  have hascii : c.toNat < 128 := by
    by_contra hlarge
    have hrange : ∀ top : Char, top.toNat < 128 → ¬ c ≤ top := by
      intro top htop hle
      have : c.toNat ≤ top.toNat := hle
      omega
    simp [digitValue, hrange '9' (by decide), hrange 'f' (by decide), hrange 'F' (by decide)] at h
  have hall : ∀ n < 128, ∀ d ∈ digitValue (Char.ofNat n),
      smallDigits[d]? = some (Char.ofNat n) ∨ largeDigits[d]? = some (Char.ofNat n) := by
    decide
  have hc := hall c.toNat hascii d
  rw [Char.ofNat_toNat] at hc
  exact hc h

theorem digit?_eq_some_iff {base d : Nat} {c : Char} : digit? base c = some d ↔ IsWorth c d ∧ d < base := by
  rw [digit?, Option.filter_eq_some_iff, decide_eq_true_iff]
  constructor
  · rintro ⟨hvalue, hd⟩
    exact ⟨isWorth_of_digitValue hvalue, hd⟩
  · rintro ⟨hworth, hd⟩
    exact ⟨digitValue_of_isWorth hworth, hd⟩

theorem isDigit_iff {base : Nat} {c : Char} : isDigit base c = true ↔ ∃ d, IsWorth c d ∧ d < base := by
  simp only [isDigit, Option.isSome_iff_exists, digit?_eq_some_iff]

/-! ## Rows -/

theorem valueFrom_append (base acc : Nat) (row more : List Char) :
    valueFrom base acc (row ++ more) = valueFrom base (valueFrom base acc row) more := by
  induction row generalizing acc with
  | nil => rfl
  | cons c row ih => exact ih _

/-- A row writes a number just if it is all digits, and then its value. -/
theorem writes_iff {base : Nat} {row : List Char} {n : Nat} :
    Writes base row n ↔ (∀ c ∈ row, isDigit base c = true) ∧ value base row = n := by
  constructor
  · intro h
    induction h with
    | nil => exact ⟨nofun, rfl⟩
    | @snoc row n c d _ hworth hd ih =>
      obtain ⟨hdigits, hvalue⟩ := ih
      have hc : digit? base c = some d := digit?_eq_some_iff.2 ⟨hworth, hd⟩
      constructor
      · intro b hb
        rcases List.mem_append.1 hb with hb | hb
        · exact hdigits b hb
        · rw [List.mem_singleton.1 hb, isDigit, hc]
          rfl
      · rw [value, valueFrom_append, ← value, hvalue, valueFrom, valueFrom, hc]
        rfl
  · rintro ⟨hdigits, rfl⟩
    induction row using List.reverseRecOn with
    | nil => exact .nil
    | append_singleton row c ih =>
      obtain ⟨d, hworth, hd⟩ := isDigit_iff.1 (hdigits c (by simp))
      have hc : digit? base c = some d := digit?_eq_some_iff.2 ⟨hworth, hd⟩
      have hrow := ih fun b hb => hdigits b (List.mem_append_left [c] hb)
      rw [value, valueFrom_append, ← value, valueFrom, valueFrom, hc]
      exact .snoc hrow hworth hd

theorem Writes.isWorth {base : Nat} {row : List Char} {n : Nat} (h : Writes base row n) {c : Char} (hc : c ∈ row) :
    ∃ d, IsWorth c d := by
  obtain ⟨d, hworth, -⟩ := isDigit_iff.1 ((writes_iff.1 h).1 c hc)
  exact ⟨d, hworth⟩

theorem Writes.unique {base : Nat} {row : List Char} {n m : Nat} (h : Writes base row n) (h' : Writes base row m) :
    n = m := by
  rw [← (writes_iff.1 h).2, ← (writes_iff.1 h').2]

/-- Zeros before a number are nothing to it. -/
theorem Writes.zeros {base : Nat} {row : List Char} {n : Nat} (hbase : 0 < base) (k : Nat) (h : Writes base row n) :
    Writes base (List.replicate k '0' ++ row) n := by
  induction h with
  | nil =>
    rw [List.append_nil]
    induction k with
    | zero => exact .nil
    | succ k ih =>
      have hzero : IsWorth '0' 0 := .inl rfl
      have hnext := ih.snoc hzero hbase
      rw [Nat.zero_mul, Nat.zero_add] at hnext
      rwa [List.replicate_succ']
  | snoc _ hworth hd ih =>
    rw [← List.append_assoc]
    exact .snoc ih hworth hd

/-! ## Reading -/

theorem le_valueFrom {base : Nat} (hbase : 0 < base) (acc : Nat) (row : List Char) : acc ≤ valueFrom base acc row := by
  induction row generalizing acc with
  | nil => exact Nat.le_refl acc
  | cons c row ih =>
    have hstep : acc ≤ acc * base := Nat.le_mul_of_pos_right acc hbase
    have hrest := ih (acc * base + (digit? base c).getD 0)
    rw [valueFrom]
    omega

/-- A running value below the limit is what has been read; the first that is
not stays too large, whatever comes after it. -/
theorem readFrom_append {base limit acc : Nat} {row rest : List Char} (hbase : 0 < base) (hacc : acc < limit)
    (hdigits : ∀ c ∈ row, isDigit base c = true) :
    readFrom base limit acc (row ++ rest) =
      if valueFrom base acc row < limit then readFrom base limit (valueFrom base acc row) rest
      else .error .tooLarge := by
  induction row generalizing acc with
  | nil => rw [List.nil_append, valueFrom, if_pos hacc]
  | cons c row ih =>
    obtain ⟨hc, hrow⟩ := List.forall_mem_cons.1 hdigits
    obtain ⟨d, hd⟩ := Option.isSome_iff_exists.1 hc
    simp only [List.cons_append, readFrom, valueFrom, hd, Option.getD_some]
    by_cases hnext : acc * base + d < limit
    · rw [if_pos hnext]
      exact ih hnext hrow
    · have hgrown := le_valueFrom hbase (acc * base + d) row
      rw [if_neg hnext, if_neg (by omega)]

section

variable {base limit n : Nat} {row rest body : List Char} {fault : Fault}

theorem Writes.readFrom_append (h : Writes base row n) (hbase : 0 < base) (hlimit : 0 < limit) :
    Numeral.readFrom base limit 0 (row ++ rest) =
      if n < limit then Numeral.readFrom base limit n rest else .error .tooLarge := by
  obtain ⟨hdigits, rfl⟩ := writes_iff.1 h
  exact Numeral.readFrom_append hbase hlimit hdigits

theorem Writes.readFrom (h : Writes base row n) (hbase : 0 < base) (hlimit : 0 < limit) :
    Numeral.readFrom base limit 0 row = if n < limit then .ok n else .error .tooLarge := by
  rw [← List.append_nil row, h.readFrom_append hbase hlimit]
  rfl

theorem readDigits_of_ne_nil (hne : row ≠ []) : readDigits base limit row = Numeral.readFrom base limit 0 row := by
  cases row with
  | nil => exact absurd rfl hne
  | cons c row => rfl

theorem Fails.readDigits (h : Fails base limit row fault) (hbase : 0 < base) (hlimit : 0 < limit) :
    Numeral.readDigits base limit row = .error fault := by
  cases h with
  | empty => rfl
  | notADigit hwrites hn hc =>
    have hnone : digit? base _ = none :=
      Option.eq_none_iff_forall_ne_some.2 fun d hd => hc d (digit?_eq_some_iff.1 hd).2 (digit?_eq_some_iff.1 hd).1
    rw [readDigits_of_ne_nil (by simp), hwrites.readFrom_append hbase hlimit, if_pos hn, Numeral.readFrom, hnone]
  | @tooLarge front n rest hwrites hn =>
    have hne : front ++ rest ≠ [] := by
      intro hnil
      obtain ⟨rfl, -⟩ := List.append_eq_nil_iff.1 hnil
      have hzero := hwrites.unique .nil
      omega
    rw [readDigits_of_ne_nil hne, hwrites.readFrom_append hbase hlimit, if_neg (by omega)]

/-- A text is a row of digits of a number below the limit, or something is
wrong with it. -/
theorem writes_or_fails (base limit : Nat) (row : List Char) :
    (∃ n, row ≠ [] ∧ Writes base row n ∧ n < limit) ∨ ∃ fault, Fails base limit row fault := by
  cases hrow : row with
  | nil => exact .inr ⟨.empty, .empty⟩
  | cons c cs =>
    rw [← hrow]
    have hwrites : Writes base (row.takeWhile (isDigit base)) _ := writes_iff.2 ⟨fun c hc => List.mem_takeWhile_imp hc, rfl⟩
    have hsplit : row.takeWhile (isDigit base) ++ row.dropWhile (isDigit base) = row := List.takeWhile_append_dropWhile
    by_cases hn : value base (row.takeWhile (isDigit base)) < limit
    · cases hrest : row.dropWhile (isDigit base) with
      | nil =>
        rw [hrest, List.append_nil] at hsplit
        rw [hsplit] at hwrites hn
        exact .inl ⟨_, by simp [hrow], hwrites, hn⟩
      | cons b rest =>
        have hb : isDigit base b = false := by
          have hstop := List.head?_dropWhile_not (isDigit base) row
          rwa [hrest] at hstop
        refine .inr ⟨.notADigit, ?_⟩
        rw [← hsplit, hrest]
        refine .notADigit hwrites hn fun d hd hworth => ?_
        rw [isDigit_iff.2 ⟨d, hworth, hd⟩] at hb
        cases hb
    · refine .inr ⟨.tooLarge, ?_⟩
      rw [← hsplit]
      exact .tooLarge hwrites (by omega)

theorem readDigits_eq_ok_iff (hbase : 0 < base) (hlimit : 0 < limit) :
    readDigits base limit row = .ok n ↔ row ≠ [] ∧ Writes base row n ∧ n < limit := by
  have hread : ∀ {m}, row ≠ [] → Writes base row m → m < limit → readDigits base limit row = .ok m := by
    intro m hne hwrites hm
    rw [readDigits_of_ne_nil hne, hwrites.readFrom hbase hlimit, if_pos hm]
  constructor
  · intro h
    obtain ⟨m, hne, hwrites, hm⟩ | ⟨fault, hfails⟩ := writes_or_fails base limit row
    · rw [hread hne hwrites hm] at h
      cases h
      exact ⟨hne, hwrites, hm⟩
    · rw [hfails.readDigits hbase hlimit] at h
      cases h
  · rintro ⟨hne, hwrites, hn⟩
    exact hread hne hwrites hn

theorem readDigits_eq_error_iff (hbase : 0 < base) (hlimit : 0 < limit) :
    readDigits base limit row = .error fault ↔ Fails base limit row fault := by
  constructor
  · intro h
    obtain ⟨m, hm⟩ | ⟨other, hfails⟩ := writes_or_fails base limit row
    · rw [(readDigits_eq_ok_iff hbase hlimit).2 hm] at h
      cases h
    · rw [hfails.readDigits hbase hlimit] at h
      cases h
      exact hfails
  · intro h
    exact h.readDigits hbase hlimit

/-! ## Signs -/

theorem exists_unsigned (body : List Char) : ∃ row, Unsigned body row := by
  by_cases h : ∃ row, row ≠ [] ∧ body = '+' :: row
  · obtain ⟨row, hne, rfl⟩ := h
    exact ⟨row, .plus hne⟩
  · exact ⟨body, .bare fun row hne hbody => h ⟨row, hne, hbody⟩⟩

theorem Unsigned.read (h : Unsigned body row) : Numeral.read base limit body = readDigits base limit row := by
  cases h with
  | plus hne =>
    cases row with
    | nil => exact absurd rfl hne
    | cons c row => rfl
  | bare hbare =>
    unfold Numeral.read
    split
    next =>
      have hnone : digit? base '+' = none := rfl
      rw [readDigits_of_ne_nil (by simp), Numeral.readFrom, hnone]
    next row hne => exact absurd rfl (hbare row fun hnil => hne (hnil ▸ rfl))
    next => rfl

theorem Writes.unsigned (h : Writes base row n) : Unsigned row row := by
  refine .bare fun rest _ hrow => ?_
  obtain ⟨d, hworth, -⟩ := isDigit_iff.1 ((writes_iff.1 h).1 '+' (by simp [hrow]))
  exact hworth.not_special.2.1 rfl

theorem read_eq_ok_iff (hbase : 0 < base) (hlimit : 0 < limit) :
    read base limit body = .ok n ↔ Spells base body n ∧ n < limit := by
  constructor
  · intro h
    obtain ⟨row, hrow⟩ := exists_unsigned body
    rw [hrow.read, readDigits_eq_ok_iff hbase hlimit] at h
    obtain ⟨hne, hwrites, hn⟩ := h
    cases hrow with
    | plus => exact ⟨.signed hne hwrites, hn⟩
    | bare => exact ⟨.bare hne hwrites, hn⟩
  · rintro ⟨hspells, hn⟩
    cases hspells with
    | bare hne hwrites =>
      rw [hwrites.unsigned.read]
      exact (readDigits_eq_ok_iff hbase hlimit).2 ⟨hne, hwrites, hn⟩
    | signed hne hwrites =>
      rw [(Unsigned.plus hne).read]
      exact (readDigits_eq_ok_iff hbase hlimit).2 ⟨hne, hwrites, hn⟩

theorem read_eq_error_iff (hbase : 0 < base) (hlimit : 0 < limit) :
    read base limit body = .error fault ↔ ∃ row, Unsigned body row ∧ Fails base limit row fault := by
  constructor
  · intro h
    obtain ⟨row, hrow⟩ := exists_unsigned body
    rw [hrow.read, readDigits_eq_error_iff hbase hlimit] at h
    exact ⟨row, hrow, h⟩
  · rintro ⟨row, hrow, hfails⟩
    rw [hrow.read]
    exact hfails.readDigits hbase hlimit

end

/-! ## The digits of a number -/

theorem isWorth_digitChar {d : Nat} (hd : d < 16) : IsWorth (Nat.digitChar d) d := by
  have hall : ∀ d < 16, smallDigits[d]? = some (Nat.digitChar d) := by decide
  exact .inl (hall d hd)

theorem writes_toDigits {base : Nat} (hbase : 1 < base) (hle : base ≤ 16) (n : Nat) :
    Writes base (Nat.toDigits base n) n := by
  induction n using Nat.strongRecOn with
  | ind n ih =>
    by_cases hn : n < base
    · have hone : Writes base ([] ++ [Nat.digitChar n]) (0 * base + n) :=
        .snoc .nil (isWorth_digitChar (by omega)) hn
      rw [Nat.zero_mul, Nat.zero_add] at hone
      rwa [Nat.toDigits_of_lt_base hn]
    · have hsmaller : n / base < n := Nat.div_lt_self (by omega) hbase
      have hlast : n % base < base := Nat.mod_lt n (by omega)
      have hmore := (ih _ hsmaller).snoc (isWorth_digitChar (by omega)) hlast
      rw [Nat.div_add_mod' n base] at hmore
      rwa [Nat.toDigits_of_base_le hbase (by omega)]

/-- A number in decimal. -/
theorem writes_repr (n : Nat) : Writes 10 n.repr.toList n := by
  rw [Nat.toList_repr]
  exact writes_toDigits (by decide) (by decide) n

theorem repr_ne_nil (n : Nat) : n.repr.toList ≠ [] := by
  rw [Nat.toList_repr]
  exact Nat.toDigits_ne_nil

end MemsProbe.Numeral
