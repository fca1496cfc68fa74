/-
What a typed count is read as.

A text without the blanks at its ends names a base and leaves a body to be
read in it (`Based`), and there is no text that does not. The count is the
number that the body spells, if there is one and it fits in 64 bits. Any other
text is refused, but for `inf`, which has no end (`parse_counts`).

The three marks overlap: a zero is the mark of eight just if something other
than the mark of sixteen follows it. A number written in its base therefore
comes back with its own mark, and without one only if it does not begin with a
zero (`based_toDigits`).
-/
import MemsProbe.Proofs.Numerals
import MemsProbe.Proofs.Trimming
import MemsProbe.ReadCount

namespace MemsProbe.ReadCount

open Numeral (Fails Spells Unsigned Writes)

/-! ## Bases -/

/-- The base that a text names, and its body in that base. -/
inductive Based : List Char → Nat → List Char → Prop
  | smallHex : Based ('0' :: 'x' :: body) 16 body
  | largeHex : Based ('0' :: 'X' :: body) 16 body
  | octal : c ≠ 'x' → c ≠ 'X' → Based ('0' :: c :: rest) 8 (c :: rest)
  | zero : Based ['0'] 10 ['0']
  | decimal : t.head? ≠ some '0' → Based t 10 t

section

variable {t body : List Char} {base n : Nat}

theorem based_baseAndBody (t : List Char) : Based t (baseAndBody t).1 (baseAndBody t).2 := by
  unfold baseAndBody
  split
  next => exact .smallHex
  next => exact .largeHex
  next hsmall hlarge => exact .octal hsmall hlarge
  next hsmall hlarge hoctal =>
    by_cases hhead : t.head? = some '0'
    · obtain ⟨rest, rfl⟩ := List.head?_eq_some_iff.1 hhead
      cases rest with
      | nil => exact .zero
      | cons c rest => exact absurd rfl (hoctal c rest)
    · exact .decimal hhead

theorem Based.eq_baseAndBody (h : Based t base body) : baseAndBody t = (base, body) := by
  cases h with
  | smallHex | largeHex | zero => rfl
  | octal hsmall hlarge =>
    unfold baseAndBody
    split
    next heq => exact absurd (List.cons.inj (List.cons.inj heq).2).1 hsmall
    next heq => exact absurd (List.cons.inj (List.cons.inj heq).2).1 hlarge
    next heq => rw [(List.cons.inj heq).2]
    next hoctal => exact absurd rfl (hoctal _ _)
  | decimal hhead =>
    unfold baseAndBody
    split
    all_goals first | rfl | exact absurd rfl hhead

theorem Based.pos (h : Based t base body) : 0 < base := by
  cases h <;> decide

/-- The word for a count without an end spells no number. -/
theorem Based.ne_inf (h : Based t base body) (hspells : Spells base body n) : t ≠ ['i', 'n', 'f'] := by
  rintro rfl
  cases h with
  | decimal =>
    cases hspells with
    | bare _ hwrites =>
      have hdigit := (Numeral.writes_iff.1 hwrites).1 'i' (by decide)
      exact absurd hdigit (by decide)

/-! ## Reading -/

/-- How a text is refused. -/
def refusal (t : List Char) (fault : Numeral.Fault) : Failure :=
  .invalidInput (String.ofList t) ("read-loop-count must be a number or 'inf' (" ++ fault.message ++ ")")

theorem refusal_injective {fault other : Numeral.Fault} (h : refusal t fault = refusal t other) : fault = other := by
  cases fault <;> cases other <;> first | rfl | exact absurd h (by simp [refusal, Numeral.Fault.message])

variable {s : String}

theorem parse_inf (ht : Text.Trimmed s.toList ['i', 'n', 'f']) : parse s = .ok .forever := by
  rw [parse, ← ht.eq_trim, parseTrimmed, if_pos rfl]

theorem parse_eq (ht : Text.Trimmed s.toList t) (hbased : Based t base body) (hinf : t ≠ ['i', 'n', 'f']) :
    parse s =
      match Numeral.read base UInt64.size body with
      | .ok n => .ok (.times n)
      | .error fault => .error (refusal t fault) := by
  rw [parse, ← ht.eq_trim, parseTrimmed, if_neg hinf, hbased.eq_baseAndBody]
  rfl

theorem parse_eq_forever_iff (ht : Text.Trimmed s.toList t) (hbased : Based t base body) :
    parse s = .ok .forever ↔ t = ['i', 'n', 'f'] := by
  constructor
  · intro h
    by_contra hinf
    rw [parse_eq ht hbased hinf] at h
    split at h <;> cases h
  · rintro rfl
    exact parse_inf ht

theorem parse_eq_times_iff (ht : Text.Trimmed s.toList t) (hbased : Based t base body) :
    parse s = .ok (.times n) ↔ Spells base body n ∧ n < UInt64.size := by
  rw [← Numeral.read_eq_ok_iff hbased.pos (by decide)]
  constructor
  · intro h
    by_cases hinf : t = ['i', 'n', 'f']
    · rw [parse_inf (hinf ▸ ht)] at h
      cases h
    · rw [parse_eq ht hbased hinf] at h
      split at h
      next m hread =>
        cases h
        exact hread
      next => cases h
  · intro h
    obtain ⟨hspells, -⟩ := (Numeral.read_eq_ok_iff hbased.pos (by decide)).1 h
    rw [parse_eq ht hbased (hbased.ne_inf hspells), h]

theorem parse_eq_refusal_iff (ht : Text.Trimmed s.toList t) (hbased : Based t base body) (hinf : t ≠ ['i', 'n', 'f'])
    {fault : Numeral.Fault} :
    parse s = .error (refusal t fault) ↔ ∃ row, Unsigned body row ∧ Fails base UInt64.size row fault := by
  rw [← Numeral.read_eq_error_iff hbased.pos (by decide), parse_eq ht hbased hinf]
  split
  next n hread =>
    rw [hread]
    constructor <;> nofun
  next other hread =>
    rw [hread]
    constructor
    · intro h
      rw [refusal_injective (Except.error.inj h)]
    · intro h
      rw [Except.error.inj h]

/-- What is neither a number of 64 bits nor `inf` is refused. -/
theorem parse_refused_iff (ht : Text.Trimmed s.toList t) (hbased : Based t base body) :
    (∃ fault, parse s = .error (refusal t fault)) ↔
      t ≠ ['i', 'n', 'f'] ∧ ∀ n, Spells base body n → UInt64.size ≤ n := by
  constructor
  · rintro ⟨fault, h⟩
    constructor
    · rintro rfl
      rw [parse_inf ht] at h
      cases h
    · intro n hspells
      by_contra hn
      rw [(parse_eq_times_iff ht hbased).2 ⟨hspells, by omega⟩] at h
      cases h
  · rintro ⟨hinf, hlarge⟩
    cases hread : Numeral.read base UInt64.size body with
    | ok n =>
      obtain ⟨hspells, hn⟩ := (Numeral.read_eq_ok_iff hbased.pos (by decide)).1 hread
      have := hlarge n hspells
      omega
    | error fault =>
      refine ⟨fault, ?_⟩
      rw [parse_eq ht hbased hinf, hread]

end

/-! ## Numbers as they are written -/

section

variable {base n : Nat}

theorem head?_toDigits (hbase : 1 < base) (hle : base ≤ 16) (hn : 0 < n) : (Nat.toDigits base n).head? ≠ some '0' := by
  induction n using Nat.strongRecOn with
  | ind n ih =>
    by_cases hlast : n < base
    · rw [Nat.toDigits_of_lt_base hlast]
      intro hzero
      have hworth := Numeral.isWorth_digitChar (show n < 16 by omega)
      rw [Option.some.inj hzero] at hworth
      have hvalue : some 0 = some n := Numeral.digitValue_of_isWorth hworth
      cases hvalue
      omega
    · have hmore : 0 < n / base := Nat.div_pos (by omega) (by omega)
      rw [Nat.toDigits_of_base_le hbase (by omega), List.head?_append_of_ne_nil _ Nat.toDigits_ne_nil]
      exact ih _ (Nat.div_lt_self hn hbase) hmore

theorem based_toDigits (n : Nat) : Based (Nat.toDigits 10 n) 10 (Nat.toDigits 10 n) := by
  rcases Nat.eq_zero_or_pos n with rfl | hn
  · exact .zero
  · exact .decimal (head?_toDigits (by decide) (by decide) hn)

theorem toDigits_special (hbase : 1 < base) (hle : base ≤ 16) {c : Char} (hc : c ∈ Nat.toDigits base n) :
    Text.isBlank c = false ∧ c ≠ 'x' ∧ c ≠ 'X' := by
  obtain ⟨hdigits, -⟩ := Numeral.writes_iff.1 (Numeral.writes_toDigits hbase hle n)
  obtain ⟨d, hworth, -⟩ := Numeral.isDigit_iff.1 (hdigits c hc)
  obtain ⟨hblank, -, -, hmark⟩ := hworth.not_special
  exact ⟨hblank, hmark⟩

/-- The digits of a number after their mark are read as the number. -/
theorem parse_toDigits (mark : List Char) (hbase : 1 < base) (hle : base ≤ 16)
    (hmark : mark.any Text.isBlank = false)
    (hbased : Based (mark ++ Nat.toDigits base n) base (Nat.toDigits base n)) (hn : n < UInt64.size) :
    parse (String.ofList (mark ++ Nat.toDigits base n)) = .ok (.times n) := by
  have hunblank : ∀ c ∈ mark ++ Nat.toDigits base n, Text.isBlank c = false := by
    intro c hc
    rcases List.mem_append.1 hc with hc | hc
    · exact Bool.eq_false_iff.2 (List.any_eq_false.1 hmark c hc)
    · exact (toDigits_special hbase hle hc).1
  have ht : Text.Trimmed (String.ofList (mark ++ Nat.toDigits base n)).toList (mark ++ Nat.toDigits base n) := by
    rw [String.toList_ofList]
    exact Text.trimmed_of_unblank hunblank
  have hspells : Spells base (Nat.toDigits base n) n :=
    .bare Nat.toDigits_ne_nil (Numeral.writes_toDigits hbase hle n)
  exact (parse_eq_times_iff ht hbased).2 ⟨hspells, hn⟩

theorem parse_decimal (hn : n < UInt64.size) : parse n.repr = .ok (.times n) := by
  have h := parse_toDigits [] (by decide) (by decide) rfl (based_toDigits n) hn
  rwa [List.nil_append, ← Nat.toList_repr, String.ofList_toList] at h

theorem parse_hex (hn : n < UInt64.size) : parse ("0x" ++ String.ofList (Nat.toDigits 16 n)) = .ok (.times n) := by
  have h := parse_toDigits ['0', 'x'] (by decide) (by decide) rfl .smallHex hn
  rwa [String.ofList_append] at h

theorem parse_octal (hn : n < UInt64.size) : parse ("0" ++ String.ofList (Nat.toDigits 8 n)) = .ok (.times n) := by
  have hbased : Based ('0' :: Nat.toDigits 8 n) 8 (Nat.toDigits 8 n) := by
    obtain ⟨c, rest, hdigits⟩ := List.exists_cons_of_ne_nil (Nat.toDigits_ne_nil (b := 8) (n := n))
    have hc : c ∈ Nat.toDigits 8 n := by simp [hdigits]
    obtain ⟨-, hsmall, hlarge⟩ := toDigits_special (by decide) (by decide) hc
    rw [hdigits]
    exact .octal hsmall hlarge
  have h := parse_toDigits ['0'] (by decide) (by decide) rfl hbased hn
  rwa [String.ofList_append] at h

end

/-- **A count is the number that its text spells in the base it names.** The
text is what lies between the blanks; it names one base, and its body there
spells a count just if it is digits of that base, after one plus sign at most,
of a number that fits in 64 bits. Nothing else is a count but `inf`. What is
refused is named without the blanks, with the fault that comes first in it.

So every number of 64 bits is read from its own digits in each base. -/
theorem parse_counts :
    (∀ s : String, (∃ t base body, Text.Trimmed s.toList t ∧ Based t base body) ∧
      ∀ t base body, Text.Trimmed s.toList t → Based t base body →
        (parse s = .ok .forever ↔ t = ['i', 'n', 'f']) ∧
          (∀ n, parse s = .ok (.times n) ↔ Spells base body n ∧ n < UInt64.size) ∧
          ((∃ fault, parse s = .error (refusal t fault)) ↔
            t ≠ ['i', 'n', 'f'] ∧ ∀ n, Spells base body n → UInt64.size ≤ n) ∧
          ∀ fault, t ≠ ['i', 'n', 'f'] → (parse s = .error (refusal t fault) ↔
            ∃ row, Unsigned body row ∧ Fails base UInt64.size row fault)) ∧
      ∀ n < UInt64.size,
        parse n.repr = .ok (.times n) ∧
          parse ("0x" ++ String.ofList (Nat.toDigits 16 n)) = .ok (.times n) ∧
          parse ("0" ++ String.ofList (Nat.toDigits 8 n)) = .ok (.times n) := by
  constructor
  · intro s
    refine ⟨⟨_, _, _, Text.trim_trimmed s.toList, based_baseAndBody _⟩, fun t base body ht hbased => ?_⟩
    refine ⟨parse_eq_forever_iff ht hbased, fun n => parse_eq_times_iff ht hbased, parse_refused_iff ht hbased, ?_⟩
    intro fault hinf
    exact parse_eq_refusal_iff ht hbased hinf
  · intro n hn
    exact ⟨parse_decimal hn, parse_hex hn, parse_octal hn⟩

/-- A plus sign in the base of eight, and the first number past 64 bits. -/
theorem marked_counts :
    parse "\t0+17\n" = .ok (.times 15) ∧
      parse "0x10000000000000000" =
        .error (.invalidInput "0x10000000000000000"
          "read-loop-count must be a number or 'inf' (number too large to fit in target type)") := by
  obtain ⟨hparse, -⟩ := parse_counts
  constructor
  · have ht : Text.Trimmed "\t0+17\n".toList "0+17".toList := Text.trimmed_iff.2 (by decide)
    have hbased : Based "0+17".toList 8 "+17".toList := .octal (by decide) (by decide)
    have hrow : Writes 8 "17".toList 15 := Numeral.writes_iff.2 ⟨List.all_eq_true.1 (by decide), by decide⟩
    exact ((hparse _).2 _ _ _ ht hbased).2.1 15 |>.2 ⟨.signed (by decide) hrow, by decide⟩
  · have ht : Text.Trimmed "0x10000000000000000".toList "0x10000000000000000".toList := Text.trimmed_iff.2 (by decide)
    have hrow : Writes 16 "10000000000000000".toList UInt64.size :=
      Numeral.writes_iff.2 ⟨List.all_eq_true.1 (by decide), by decide⟩
    have hfails : Fails 16 UInt64.size ("10000000000000000".toList ++ []) .tooLarge := .tooLarge hrow (by decide)
    exact (((hparse _).2 _ _ _ ht .smallHex).2.2.2 .tooLarge (by decide)).2 ⟨_, hrow.unsigned, hfails⟩

end MemsProbe.ReadCount
