/-
Command bytes as they are typed.

Both readings are told from the shape of a text alone. The lenient one takes
a text apart from the left (`Layout`): every text has such parts, and only its
sign and the number that its digits write matter (`parse_lenient_yields`). The
strict one wants digits and nothing else between the blanks at the ends, but
for one mark (`parse_strict_yields`).

Numbers are not bounded here. That the readers count in 64 bits shows only in
what a number too large is taken for, and in how a minus is.
-/
import MemsProbe.Console.CommandByte
import MemsProbe.Proofs.Numerals
import MemsProbe.Proofs.Trimming

namespace MemsProbe.CommandByte

open Numeral (IsWorth Writes)

/-- What comes of a number: the byte that it is, or that it is too large to be
one. -/
inductive Yields : Nat → Except Failure UInt8 → Prop
  | byte (b : UInt8) : Yields b.toNat (.ok b)
  | outOfRange : 0xFF < n → Yields n (.error (.outOfRange n))

theorem ofNat_yields (n : Nat) : Yields n (ofNat n) := by
  rw [ofNat]
  split
  next hn =>
    have hbyte := Yields.byte (UInt8.ofNat n)
    rwa [UInt8.toNat_ofNat_of_lt' hn] at hbyte
  next hn => exact .outOfRange (by omega)

theorem Yields.ne_invalidInput {n : Nat} {answer : Except Failure UInt8} (h : Yields n answer) (input reason : String) :
    answer ≠ .error (.invalidInput input reason) := by
  cases h <;> nofun

theorem isHexDigit_iff {c : Char} : isHexDigit c = true ↔ ∃ d, IsWorth c d := by
  rw [isHexDigit, Numeral.isDigit_iff]
  constructor
  · rintro ⟨d, hworth, -⟩
    exact ⟨d, hworth⟩
  · rintro ⟨d, hworth⟩
    exact ⟨d, hworth, hworth.lt_sixteen⟩

theorem isHexDigit_eq_false_iff {c : Char} : isHexDigit c = false ↔ ∀ d, ¬ IsWorth c d := by
  rw [← Bool.not_eq_true, isHexDigit_iff, not_exists]

/-- A text begins with a mark, or with none. -/
theorem dropMark_cases (s : List Char) :
    (∃ x, (x = 'x' ∨ x = 'X') ∧ s = '0' :: x :: dropMark s) ∨
      dropMark s = s ∧ ∀ x more, s = '0' :: x :: more → x ≠ 'x' ∧ x ≠ 'X' := by
  unfold dropMark
  split
  next more => exact .inl ⟨'x', .inl rfl, rfl⟩
  next more => exact .inl ⟨'X', .inr rfl, rfl⟩
  next hsmall hlarge =>
    refine .inr ⟨rfl, ?_⟩
    rintro x more rfl
    exact ⟨fun hx => hsmall more (hx ▸ rfl), fun hx => hlarge more (hx ▸ rfl)⟩

/-! ## The lenient reading -/

inductive Sign where
  | none
  | plus
  | minus
  deriving DecidableEq

def Sign.text : Sign → List Char
  | none => []
  | plus => ['+']
  | minus => ['-']

inductive Mark where
  | none
  | small
  | large
  deriving DecidableEq

def Mark.text : Mark → List Char
  | none => []
  | small => ['0', 'x']
  | large => ['0', 'X']

/-- The parts of a text, read from the left. Each is as long as it can be, but
that a mark is one only before a digit. -/
structure Layout where
  blanks : List Char
  sign : Sign
  mark : Mark
  row : List Char
  rest : List Char
  allBlank : ∀ c ∈ blanks, Text.isBlank c = true
  unblank : ∀ c ∈ (sign.text ++ (mark.text ++ (row ++ rest))).head?, Text.isBlank c = false
  unsigned : sign = .none → ∀ c ∈ (mark.text ++ (row ++ rest)).head?, c ≠ '+' ∧ c ≠ '-'
  marked : mark ≠ .none → row ≠ []
  unmarked : mark = .none → ∀ x c more, row ++ rest = '0' :: x :: c :: more → x = 'x' ∨ x = 'X' → ∀ d, ¬ IsWorth c d
  digits : ∀ c ∈ row, ∃ d, IsWorth c d
  ended : ∀ c ∈ rest.head?, ∀ d, ¬ IsWorth c d

def Layout.text (l : Layout) : List Char :=
  l.blanks ++ (l.sign.text ++ (l.mark.text ++ (l.row ++ l.rest)))

theorem dropSign_append {sign : Sign} {s : List Char} (hs : sign = .none → ∀ c ∈ s.head?, c ≠ '+' ∧ c ≠ '-') :
    dropSign (sign.text ++ s) = (decide (sign = .minus), s) := by
  cases sign with
  | plus => rfl
  | minus => rfl
  | none =>
    cases s with
    | nil => rfl
    | cons c s =>
      obtain ⟨hplus, hminus⟩ := hs rfl c rfl
      simp [Sign.text, dropSign, hplus, hminus]

theorem exists_sign (s : List Char) :
    ∃ sign rest, s = Sign.text sign ++ rest ∧ (sign = .none → ∀ c ∈ rest.head?, c ≠ '+' ∧ c ≠ '-') := by
  cases s with
  | nil => exact ⟨.none, [], rfl, by simp⟩
  | cons c s =>
    by_cases hplus : c = '+'
    · exact ⟨.plus, s, by rw [hplus]; rfl, nofun⟩
    by_cases hminus : c = '-'
    · exact ⟨.minus, s, by rw [hminus]; rfl, nofun⟩
    refine ⟨.none, c :: s, rfl, fun _ b hb => ?_⟩
    obtain rfl : c = b := Option.some.inj hb
    exact ⟨hplus, hminus⟩

theorem dropMarkOfDigits_append {mark : Mark} {s : List Char}
    (hmarked : mark ≠ .none → ∃ c ∈ s.head?, isHexDigit c = true)
    (hunmarked : mark = .none → ∀ x c more, s = '0' :: x :: c :: more → x = 'x' ∨ x = 'X' → isHexDigit c = false) :
    dropMarkOfDigits (mark.text ++ s) = s := by
  have hdigit : mark ≠ .none → s.head?.any isHexDigit = true := by
    intro hm
    obtain ⟨c, hc, hhex⟩ := hmarked hm
    rw [Option.mem_def.1 hc, Option.any_some, hhex]
  cases mark with
  | small => exact if_pos (hdigit nofun)
  | large => exact if_pos (hdigit nofun)
  | none =>
    rw [Mark.text, List.nil_append, dropMarkOfDigits]
    obtain ⟨x, hx, hs⟩ | ⟨hsame, -⟩ := dropMark_cases s
    · have hnone : ¬ (dropMark s).head?.any isHexDigit = true := by
        cases hmore : dropMark s with
        | nil => simp
        | cons c more =>
          rw [hmore] at hs
          simp [hunmarked rfl x c more hs hx]
      rw [if_neg hnone]
    · rw [hsame, ite_self]

theorem exists_mark (s : List Char) :
    ∃ mark rest, s = Mark.text mark ++ rest ∧ (mark ≠ .none → ∃ c ∈ rest.head?, isHexDigit c = true) ∧
      (mark = .none → ∀ x c more, rest = '0' :: x :: c :: more → x = 'x' ∨ x = 'X' → isHexDigit c = false) := by
  obtain ⟨x, hx, hs⟩ | ⟨-, hnone⟩ := dropMark_cases s
  · by_cases hdigit : ∃ c ∈ (dropMark s).head?, isHexDigit c = true
    · rcases hx with rfl | rfl
      · exact ⟨.small, dropMark s, hs, fun _ => hdigit, nofun⟩
      · exact ⟨.large, dropMark s, hs, fun _ => hdigit, nofun⟩
    · refine ⟨.none, s, rfl, nofun, fun _ y c more hs' _ => Bool.eq_false_iff.2 fun hhex => hdigit ⟨c, ?_, hhex⟩⟩
      obtain ⟨-, htail⟩ := List.cons.inj (hs.symm.trans hs')
      rw [(List.cons.inj htail).2]
      rfl
  · refine ⟨.none, s, rfl, nofun, fun _ x c more hs hx => ?_⟩
    obtain ⟨hsmall, hlarge⟩ := hnone x (c :: more) hs
    exact absurd hx (not_or.2 ⟨hsmall, hlarge⟩)

/-- Every text has such parts. -/
theorem exists_layout (text : List Char) : ∃ l : Layout, l.text = text := by
  obtain ⟨sign, s, hsign, hunsigned⟩ := exists_sign (text.dropWhile Text.isBlank)
  obtain ⟨mark, t, rfl, hmarked, hunmarked⟩ := exists_mark s
  have hrow : t.takeWhile isHexDigit ++ t.dropWhile isHexDigit = t := List.takeWhile_append_dropWhile
  refine ⟨
    { blanks := text.takeWhile Text.isBlank
      sign, mark
      row := t.takeWhile isHexDigit
      rest := t.dropWhile isHexDigit
      allBlank := fun c hc => List.mem_takeWhile_imp hc
      unblank := ?_, unsigned := ?_, marked := ?_, unmarked := ?_
      digits := fun c hc => isHexDigit_iff.1 (List.mem_takeWhile_imp hc)
      ended := fun c hc => isHexDigit_eq_false_iff.1 (Text.head?_dropWhile isHexDigit t c hc) }, ?_⟩
  · rw [hrow, ← hsign]
    exact Text.head?_dropWhile Text.isBlank text
  · rwa [hrow]
  · intro hm
    obtain ⟨c, hc, hhex⟩ := hmarked hm
    obtain ⟨more, rfl⟩ : ∃ more, t = c :: more := List.head?_eq_some_iff.1 hc
    simp [hhex]
  · intro hm x c more ht hx
    rw [hrow] at ht
    exact isHexDigit_eq_false_iff.1 (hunmarked hm x c more ht hx)
  · show text.takeWhile Text.isBlank ++
      (sign.text ++ (mark.text ++ (t.takeWhile isHexDigit ++ t.dropWhile isHexDigit))) = text
    rw [hrow, ← hsign]
    exact List.takeWhile_append_dropWhile

namespace Layout

/-- The digits write a number. -/
theorem exists_writes (l : Layout) : ∃ v, Writes 16 l.row v :=
  ⟨_, Numeral.writes_iff.2 ⟨fun c hc => isHexDigit_iff.2 (l.digits c hc), rfl⟩⟩

/-- The lenient reading finds the digits, and whether they stand after a minus. -/
theorem lenientValue_text (l : Layout) {v : Nat} (hv : Writes 16 l.row v) :
    lenientValue l.text =
      if UInt64.size ≤ v then UInt64.size - 1
      else if l.sign = .minus then (UInt64.size - v) % UInt64.size
      else v := by
  have hstart : Text.trimStart l.text = l.sign.text ++ (l.mark.text ++ (l.row ++ l.rest)) :=
    Text.dropWhile_split l.allBlank l.unblank
  have hsign := dropSign_append l.unsigned
  have hmark : dropMarkOfDigits (l.mark.text ++ (l.row ++ l.rest)) = l.row ++ l.rest := by
    refine dropMarkOfDigits_append (fun hm => ?_) fun hm x c more hs hx => ?_
    · obtain ⟨c, row, hrow⟩ := List.exists_cons_of_ne_nil (l.marked hm)
      refine ⟨c, by rw [hrow]; rfl, isHexDigit_iff.2 (l.digits c ?_)⟩
      rw [hrow]
      exact List.mem_cons_self
    · exact isHexDigit_eq_false_iff.2 (l.unmarked hm x c more hs hx)
  have hrow : (l.row ++ l.rest).takeWhile isHexDigit = l.row := by
    refine Text.takeWhile_split (fun c hc => isHexDigit_iff.2 (l.digits c hc)) fun c hc => ?_
    exact isHexDigit_eq_false_iff.2 (l.ended c hc)
  have hread := hv.readFrom (by decide) (show 0 < Numeral.limit64 by decide)
  simp only [lenientValue, hstart, hsign, hmark, hrow, hread, decide_eq_true_eq]
  by_cases hlarge : UInt64.size ≤ v
  · have hover : ¬ v < Numeral.limit64 := Nat.not_lt.2 hlarge
    rw [if_neg hover, if_pos hlarge]
    rfl
  · have hwithin : v < Numeral.limit64 := Nat.not_le.1 hlarge
    rw [if_pos hwithin, if_neg hlarge]
    rfl

theorem head?_padded (front : List Char) (k : Nat) (s : List Char) :
    ∀ c ∈ (front ++ (List.replicate k '0' ++ s)).head?, c = '0' ∨ c ∈ (front ++ s).head? := by
  intro c hc
  cases front with
  | cons b front => exact .inr hc
  | nil =>
    cases k with
    | zero => exact .inr hc
    | succ k => exact .inl (Option.some.inj hc).symm

/-- The same text with zeros before its digits. -/
def padded (l : Layout) (some : l.row ≠ []) (k : Nat) : Layout where
  blanks := l.blanks
  sign := l.sign
  mark := l.mark
  row := List.replicate k '0' ++ l.row
  rest := l.rest
  allBlank := l.allBlank
  unblank := by
    intro c hc
    rw [List.append_assoc, ← List.append_assoc] at hc
    rcases head?_padded _ k _ c hc with rfl | hc
    · decide
    · rw [List.append_assoc] at hc
      exact l.unblank c hc
  unsigned := by
    intro hs c hc
    rw [List.append_assoc] at hc
    rcases head?_padded _ k _ c hc with rfl | hc
    · decide
    · exact l.unsigned hs c hc
  marked _ := List.append_ne_nil_of_right_ne_nil _ some
  unmarked := by
    intro hm x c more hs hx
    match k with
    | 0 => exact l.unmarked hm x c more hs hx
    | 1 =>
      -- After one zero there would be a mark only if the digits began with its letter.
      obtain ⟨b, row, hrow⟩ := List.exists_cons_of_ne_nil some
      obtain ⟨d, hworth⟩ := l.digits b (by rw [hrow]; exact List.mem_cons_self)
      rw [hrow] at hs
      obtain ⟨rfl, -⟩ := List.cons.inj (List.cons.inj hs).2
      have hvalue := Numeral.digitValue_of_isWorth hworth
      rcases hx with rfl | rfl
      · cases hvalue
      · cases hvalue
    | k + 2 =>
      obtain ⟨rfl, -⟩ := List.cons.inj (List.cons.inj hs).2
      rcases hx with hx | hx
      · cases hx
      · cases hx
  digits := by
    intro c hc
    rcases List.mem_append.1 hc with hc | hc
    · rw [List.eq_of_mem_replicate hc]
      exact ⟨0, .inl rfl⟩
    · exact l.digits c hc
  ended := l.ended

end Layout

/-- **The lenient reading takes the number at the start of a text**, whatever
the text is. Blanks, a sign and a mark may stand before its digits, and what
comes after them is let go; without digits it is zero. A number beyond 64 bits
counts as the largest of them, with a minus as well, and a minus takes any
other from 2^64. If that is a byte it is the answer, and otherwise it is out of
range; no text is refused for its form. Zeros before the digits make no
difference. -/
theorem parse_lenient_yields (text : String) :
    (∃ l : Layout, l.text = text.toList) ∧
      ∀ l : Layout, l.text = text.toList → ∃ v, Writes 16 l.row v ∧
        let u := if UInt64.size ≤ v then UInt64.size - 1
          else if l.sign = .minus then (UInt64.size - v) % UInt64.size
          else v
        Yields u (parse .lenient text) ∧
          (∀ input reason, parse .lenient text ≠ .error (.invalidInput input reason)) ∧
          ∀ k, l.row ≠ [] → parse .lenient (String.ofList (l.blanks ++ (l.sign.text ++ (l.mark.text ++
            (List.replicate k '0' ++ (l.row ++ l.rest)))))) = parse .lenient text := by
  refine ⟨exists_layout text.toList, fun l hl => ?_⟩
  obtain ⟨v, hv⟩ := l.exists_writes
  have hvalue := l.lenientValue_text hv
  have hparse : parse .lenient text = ofNat (lenientValue l.text) := by rw [hl]; rfl
  refine ⟨v, hv, ?_, ?_, fun k hrow => ?_⟩
  · rw [hparse, hvalue]
    exact ofNat_yields _
  · rw [hparse]
    exact (ofNat_yields _).ne_invalidInput
  · -- The sign is the same, and so is the number.
    have hpadded := (l.padded hrow k).lenientValue_text (hv.zeros (by decide) k)
    have htext : (l.padded hrow k).text = l.blanks ++ (l.sign.text ++ (l.mark.text ++
        (List.replicate k '0' ++ (l.row ++ l.rest)))) := by
      rw [← List.append_assoc (List.replicate k '0')]
      rfl
    rw [hparse, parse, String.toList_ofList, ← htext, hpadded, hvalue]
    rfl

/-- After a minus, the number that is 0x65 short of 2^64. -/
def wrapping : Layout where
  blanks := [' ', '\t']
  sign := .minus
  mark := .small
  row := ['F', 'F', 'f', 'f', 'F', 'F', 'f', 'f', 'F', 'F', 'f', 'f', 'F', 'F', '9', 'b']
  rest := ['g', ' ', '1']
  allBlank := List.all_eq_true.1 (by decide)
  unblank c hc := by
    obtain rfl : '-' = c := Option.some.inj hc
    decide
  unsigned := nofun
  marked _ := nofun
  unmarked := nofun
  digits c hc := isHexDigit_iff.1 (List.all_eq_true.1 (by decide) c hc)
  ended c hc := by
    obtain rfl : 'g' = c := Option.some.inj hc
    exact isHexDigit_eq_false_iff.1 (by decide)

/-- It is taken for 0x65, also with zeros before it. -/
theorem wrapping_yields :
    let text := " \t-0xFFffFFffFFffFF9bg 1"
    wrapping.text = text.toList ∧ wrapping.row ≠ [] ∧ Yields 0x65 (parse .lenient text) ∧
      parse .lenient " \t-0x0000FFffFFffFFffFF9bg 1" = parse .lenient text := by
  intro text
  have htext : wrapping.text = text.toList := by decide
  have hrow : wrapping.row ≠ [] := nofun
  obtain ⟨-, hlayouts⟩ := parse_lenient_yields text
  obtain ⟨v, hv, hyields, -, hzeros⟩ := hlayouts wrapping htext
  have hvalue : Writes 16 wrapping.row 0xFFFFFFFFFFFFFF9B := Numeral.writes_iff.2 ⟨List.all_eq_true.1 (by decide), by decide⟩
  obtain rfl := hv.unique hvalue
  exact ⟨htext, hrow, hyields, hzeros 4 hrow⟩

/-! ## The strict reading -/

/-- What there is after the mark that a text begins with, or the text itself. -/
inductive Unmarked : List Char → List Char → Prop
  | small (s : List Char) : Unmarked ('0' :: 'x' :: s) s
  | large (s : List Char) : Unmarked ('0' :: 'X' :: s) s
  | bare : (∀ x more, s = '0' :: x :: more → x ≠ 'x' ∧ x ≠ 'X') → Unmarked s s

theorem dropMark_unmarked (s : List Char) : Unmarked s (dropMark s) := by
  obtain ⟨x, hx, hs⟩ | ⟨hsame, hnone⟩ := dropMark_cases s
  · rw [hs]
    rcases hx with rfl | rfl
    · exact .small (dropMark s)
    · exact .large (dropMark s)
  · rw [hsame]
    exact .bare hnone

theorem Unmarked.eq_dropMark {s digits : List Char} (h : Unmarked s digits) : digits = dropMark s := by
  cases h with
  | small | large => rfl
  | bare hnone =>
    obtain ⟨x, hx, hs⟩ | ⟨hsame, -⟩ := dropMark_cases s
    · obtain ⟨hsmall, hlarge⟩ := hnone x _ hs
      exact absurd hx (not_or.2 ⟨hsmall, hlarge⟩)
    · exact hsame.symm

theorem clampedValue_eq {row : List Char} {v : Nat} (h : Writes 16 row v) :
    clampedValue row = min v (UInt64.size - 1) := by
  rw [clampedValue, h.readFrom (by decide) (by decide)]
  have hlargest : largest = UInt64.size - 1 := rfl
  have hlimit : Numeral.limit64 = UInt64.size := rfl
  have hpos : 0 < UInt64.size := by decide
  split
  next n hn =>
    split at hn
    next hwithin =>
      obtain rfl := Except.ok.inj hn
      omega
    next => cases hn
  next e hn =>
    split at hn
    next => cases hn
    next hover => omega

section

variable {text : String} {t row : List Char}

theorem parse_strict_eq (ht : Text.Trimmed text.toList t) (hrow : Unmarked t row) :
    parse .strict text =
      if row.isEmpty || !row.all isHexDigit then .error (.invalidInput (String.ofList t) "not a hexadecimal number")
      else ofNat (clampedValue row) := by
  rw [parse, strictValue, ← ht.eq_trim, ← hrow.eq_dropMark]
  by_cases hrefused : (row.isEmpty || !row.all isHexDigit) = true
  · simp only [if_pos hrefused]
  · simp only [if_neg hrefused]

theorem parse_strict_eq_ofNat (ht : Text.Trimmed text.toList t) (hrow : Unmarked t row) (hne : row ≠ []) {v : Nat}
    (hv : Writes 16 row v) : parse .strict text = ofNat (min v (UInt64.size - 1)) := by
  obtain ⟨hdigits, -⟩ := Numeral.writes_iff.1 hv
  have hall : row.all isHexDigit = true := List.all_eq_true.2 hdigits
  have htaken : (row.isEmpty || !row.all isHexDigit) = false := by simp [hne, hall]
  rw [parse_strict_eq ht hrow, htaken, if_neg Bool.false_ne_true, clampedValue_eq hv]

theorem parse_strict_of_writes (ht : Text.Trimmed text.toList t) (hrow : Unmarked t row) (hne : row ≠ []) {v : Nat}
    (hv : Writes 16 row v) : Yields (min v (UInt64.size - 1)) (parse .strict text) := by
  rw [parse_strict_eq_ofNat ht hrow hne hv]
  exact ofNat_yields _

theorem parse_strict_of_not_writes (ht : Text.Trimmed text.toList t) (hrow : Unmarked t row)
    (hno : row = [] ∨ ∀ v, ¬ Writes 16 row v) :
    parse .strict text = .error (.invalidInput (String.ofList t) "not a hexadecimal number") := by
  have hrefused : (row.isEmpty || !row.all isHexDigit) = true := by
    rcases hno with rfl | hno
    · rfl
    · have hall : ¬ row.all isHexDigit = true := fun hall =>
        hno _ (Numeral.writes_iff.2 ⟨List.all_eq_true.1 hall, rfl⟩)
      simp [hall]
  rw [parse_strict_eq ht hrow, hrefused, if_pos rfl]

end

/-- **The strict reading takes digits and nothing else**, but for the blanks
at the two ends of a text and one mark. If there are digits and they write a
byte, that is the answer, however many zeros they begin with; if they write
more, it is out of range, and what is beyond 64 bits counts as the largest of
them. Any other text is refused, and named without its blanks. -/
theorem parse_strict_yields (text : String) :
    (∃ t row, Text.Trimmed text.toList t ∧ Unmarked t row) ∧
      ∀ t row, Text.Trimmed text.toList t → Unmarked t row →
        (∀ v, row ≠ [] → Writes 16 row v →
          ((∃ b, parse .strict text = .ok b ∧ b.toNat = v) ↔ v ≤ 0xFF) ∧
            (0xFF < v → parse .strict text = .error (.outOfRange (min v (UInt64.size - 1))))) ∧
          (row = [] ∨ (∀ v, ¬ Writes 16 row v) →
            parse .strict text = .error (.invalidInput (String.ofList t) "not a hexadecimal number")) := by
  refine ⟨⟨_, _, Text.trim_trimmed text.toList, dropMark_unmarked _⟩, fun t row ht hrow => ⟨fun v hne hv => ?_, ?_⟩⟩
  · have hsize : 0xFF < UInt64.size - 1 := by decide
    have hyields := parse_strict_of_writes ht hrow hne hv
    generalize parse .strict text = answer at hyields
    generalize hn : min v (UInt64.size - 1) = n at hyields
    cases hyields with
    | byte b =>
      have hb : b.toNat < 256 := b.toNat_lt
      have hv : b.toNat = v := by omega
      exact ⟨⟨fun _ => by omega, fun _ => ⟨b, rfl, hv⟩⟩, fun hlarge => by omega⟩
    | outOfRange hlarge =>
      refine ⟨⟨?_, fun hbyte => by omega⟩, fun _ => rfl⟩
      rintro ⟨b, hb, -⟩
      cases hb
  · exact parse_strict_of_not_writes ht hrow

/-- Zeros and a mark before a byte, and blanks around it, are all as well; a
mark too many is not. -/
theorem zeros_yield :
    (∃ b, parse .strict "\u00a00X000000000000000000001f\n" = .ok b ∧ b.toNat = 0x1F) ∧
      parse .strict " 0x0x1f" = .error (.invalidInput "0x0x1f" "not a hexadecimal number") := by
  constructor
  · obtain ⟨-, hparse⟩ := parse_strict_yields "\u00a00X000000000000000000001f\n"
    have ht : Text.Trimmed "\u00a00X000000000000000000001f\n".toList "0X000000000000000000001f".toList :=
      Text.trimmed_iff.2 (by decide)
    have hv : Writes 16 "000000000000000000001f".toList 0x1F := Numeral.writes_iff.2 ⟨List.all_eq_true.1 (by decide), by decide⟩
    exact ((hparse _ _ ht (.large _)).1 _ (by decide) hv).1.2 (by decide)
  · obtain ⟨-, hparse⟩ := parse_strict_yields " 0x0x1f"
    have ht : Text.Trimmed " 0x0x1f".toList "0x0x1f".toList := Text.trimmed_iff.2 (by decide)
    refine (hparse _ _ ht (.small _)).2 (.inr fun v hv => ?_)
    have hdigits := (Numeral.writes_iff.1 hv).1 'x' (by decide)
    exact absurd hdigits (by decide)

end MemsProbe.CommandByte
