/-
Dumps as rows, and as bytes that can be typed.

A dump of bytes is their one line with line ends put in: one after each full
row, and one at the end. So its rows are the bytes in sixteens, and the last
row holds what is left, which may be nothing.

The line ends fall where blanks stand in any case. The words of a dump are
therefore those of the line, two digits for every byte, and each of them is
read as its byte under either policy (`dump_typed`).
-/
import MemsProbe.Proofs.HexPolicies
import MemsProbe.Proofs.Pieces
import MemsProbe.Text.Hex

namespace MemsProbe

/-! ## Typed bytes -/

namespace CommandByte

/-- What comes of the words of a text, each of them typed as a command byte. -/
def parseWords (policy : HexPolicy) (text : String) : List (Except Failure UInt8) :=
  (Text.words text.toList).map fun word => parse policy (String.ofList word)

end CommandByte

namespace Hex

open Numeral (IsWorth Writes)

theorem digit_isWorth {d : Nat} (hd : d < 16) : IsWorth (digit d) d := by
  have hall : ∀ d < 16, Numeral.largeDigits[d]? = some (digit d) := by decide
  exact .inr (hall d hd)

/-- The two digits of a byte write it. -/
theorem byteChars_writes (b : UInt8) : Writes 16 (byteChars b) b.toNat := by
  have hb : b.toNat < 256 := b.toNat_lt
  have hhigh : b.toNat / 16 < 16 := by omega
  have hlow : b.toNat % 16 < 16 := by omega
  have htwo := (Writes.nil.snoc (digit_isWorth hhigh) hhigh).snoc (digit_isWorth hlow) hlow
  rwa [Nat.zero_mul, Nat.zero_add, Nat.div_add_mod'] at htwo

theorem byteChars_unblank (b : UInt8) : ∀ c ∈ byteChars b, Text.isBlank c = false := by
  intro c hc
  obtain ⟨d, hworth⟩ := (byteChars_writes b).isWorth hc
  exact hworth.not_special.1

/-- A byte is read as itself, under either policy. -/
theorem parse_byteChars (policy : HexPolicy) (b : UInt8) :
    CommandByte.parse policy (String.ofList (byteChars b)) = .ok b := by
  have ht : Text.Trimmed (String.ofList (byteChars b)).toList (byteChars b) := by
    rw [String.toList_ofList]
    exact Text.trimmed_of_unblank (byteChars_unblank b)
  have hrow : CommandByte.Unmarked (byteChars b) (byteChars b) := by
    refine .bare fun x more hs => ?_
    have hx : x ∈ byteChars b := by simp [hs]
    obtain ⟨d, hworth⟩ := (byteChars_writes b).isWorth hx
    exact hworth.not_special.2.2.2
  have hstrict : CommandByte.parse .strict (String.ofList (byteChars b)) = .ok b := by
    have hb : b.toNat < 256 := b.toNat_lt
    have hsize : 256 ≤ UInt64.size - 1 := by decide
    have hmin : min b.toNat (UInt64.size - 1) = b.toNat := Nat.min_eq_left (by omega)
    rw [CommandByte.parse_strict_eq_ofNat ht hrow (by simp [byteChars]) (byteChars_writes b), hmin, CommandByte.ofNat,
      if_pos hb, UInt8.ofNat_toNat]
  cases policy with
  | strict => exact hstrict
  | lenient =>
    have hunderstood : CommandByte.Understood (String.ofList (byteChars b)) := by
      intro input reason hrefused
      rw [hstrict] at hrefused
      cases hrefused
    rw [CommandByte.parse_lenient_of_understood hunderstood, hstrict]

/-! ## Words -/

theorem words_cell (b : UInt8) (cs : List Char) : Text.words (cell b ++ cs) = byteChars b :: Text.words cs := by
  rw [cell, List.append_assoc, List.singleton_append, Text.words_append_blank (by decide),
    Text.words_of_unblank (by simp [byteChars]) (byteChars_unblank b), List.singleton_append]

theorem words_lineEnd (cs : List Char) : Text.words ('\n' :: cs) = Text.words cs := by
  have hblank := Text.words_append_blank (c := '\n') (by decide) [] cs
  rwa [Text.words_nil] at hblank

theorem words_lineChars (bytes : List UInt8) : Text.words (lineChars bytes) = bytes.map byteChars := by
  induction bytes with
  | nil => exact Text.words_nil
  | cons b bytes ih => rw [lineChars, List.flatMap_cons, words_cell, ← lineChars, ih, List.map_cons]

theorem words_dumpFrom (room : Nat) (bytes : List UInt8) : Text.words (dumpFrom room bytes) = bytes.map byteChars := by
  induction bytes generalizing room with
  | nil => exact (words_lineEnd []).trans Text.words_nil
  | cons b bytes ih =>
    rw [dumpFrom, List.map_cons]
    split
    · rw [words_cell, words_lineEnd, ih]
    · rw [words_cell, ih]

theorem parse_words (policy : HexPolicy) {text : String} {bytes : List UInt8}
    (h : Text.words text.toList = bytes.map byteChars) : CommandByte.parseWords policy text = bytes.map .ok := by
  simp [CommandByte.parseWords, h, parse_byteChars]

/-! ## Rows -/

/-- The bytes in full rows, and a rest that fills none. -/
inductive Rows : List UInt8 → List (List UInt8) → List UInt8 → Prop
  | rest : rest.length < 16 → Rows rest [] rest
  | row : row.length = 16 → Rows bytes full rest → Rows (row ++ bytes) (row :: full) rest

theorem exists_rows (bytes : List UInt8) : ∃ full rest, Rows bytes full rest := by
  induction h : bytes.length using Nat.strongRecOn generalizing bytes with
  | ind n ih =>
    by_cases hn : n < 16
    · exact ⟨[], bytes, .rest (by omega)⟩
    · obtain ⟨full, rest, hrows⟩ := ih (n - 16) (by omega) (bytes.drop 16) (by simp [h])
      have hrow : (bytes.take 16).length = 16 := by simp; omega
      have hall := hrows.row hrow
      rw [List.take_append_drop] at hall
      exact ⟨_, _, hall⟩

theorem Rows.length {bytes rest : List UInt8} {full : List (List UInt8)} (h : Rows bytes full rest) :
    bytes.length = 16 * full.length + rest.length ∧ rest.length < 16 := by
  induction h with
  | rest hrest => exact ⟨by simp, hrest⟩
  | row hrow _ ih =>
    rw [List.length_append, List.length_cons]
    omega

theorem cell_lineEnd (b : UInt8) : '\n' ∉ cell b := by
  intro hmem
  rcases List.mem_append.1 hmem with hmem | hmem
  · exact absurd (byteChars_unblank b '\n' hmem) (by decide)
  · simp at hmem

theorem lineChars_lineEnd (bytes : List UInt8) : '\n' ∉ lineChars bytes := by
  intro hmem
  obtain ⟨b, -, hb⟩ := List.mem_flatMap.1 hmem
  exact cell_lineEnd b hb

/-- A row that is not full is ended with the dump. -/
theorem dumpFrom_rest {room : Nat} {rest : List UInt8} (h : rest.length < room) :
    dumpFrom room rest = lineChars rest ++ ['\n'] := by
  induction rest generalizing room with
  | nil => rfl
  | cons b rest ih =>
    rw [List.length_cons] at h
    rw [dumpFrom, if_neg (by omega), ih (by omega)]
    simp [lineChars]

/-- A row is ended when it is full. -/
theorem dumpFrom_row {room : Nat} {row : List UInt8} (hpos : 0 < room) (h : row.length = room) (bytes : List UInt8) :
    dumpFrom room (row ++ bytes) = lineChars row ++ '\n' :: dumpFrom rowLength bytes := by
  induction row generalizing room with
  | nil => simp at h; omega
  | cons b row ih =>
    rw [List.length_cons] at h
    rw [List.cons_append, dumpFrom]
    split
    next hlast =>
      obtain rfl : row = [] := List.length_eq_zero_iff.1 (by omega)
      simp [lineChars]
    next hmore =>
      rw [ih (by omega) (by omega)]
      simp [lineChars]

theorem Rows.dump {bytes rest : List UInt8} {full : List (List UInt8)} (h : Rows bytes full rest) :
    Hex.dump bytes = String.join (full.map fun row => line row ++ "\n") ++ (line rest ++ "\n") := by
  unfold Hex.dump
  induction h with
  | rest hrest =>
    have hroom : _ < rowLength := hrest
    rw [dumpFrom_rest hroom, String.ofList_append, ← line, List.map_nil, String.join_nil, String.empty_append]
  | row hrow _ ih =>
    have hroom : _ = rowLength := hrow
    rw [dumpFrom_row (by decide) hroom, ← List.singleton_append, String.ofList_append, String.ofList_append, ih,
      List.map_cons, String.join_cons, ← line]
    simp only [String.append_assoc]

theorem Rows.count {bytes rest : List UInt8} {full : List (List UInt8)} (h : Rows bytes full rest) :
    (dumpFrom rowLength bytes).count '\n' = full.length + 1 := by
  have hnone : ∀ row, (lineChars row).count '\n' = 0 := fun row => List.count_eq_zero.2 (lineChars_lineEnd row)
  induction h with
  | rest hrest =>
    have hroom : _ < rowLength := hrest
    rw [dumpFrom_rest hroom, List.count_append, hnone, List.count_singleton_self, List.length_nil]
  | row hrow _ ih =>
    have hroom : _ = rowLength := hrow
    rw [dumpFrom_row (by decide) hroom, List.count_append, hnone, List.count_cons_self, ih, Nat.zero_add,
      List.length_cons]

/-- Without its line ends a dump is the line of its bytes. -/
theorem filter_dumpFrom (room : Nat) (bytes : List UInt8) :
    (dumpFrom room bytes).filter (· ≠ '\n') = lineChars bytes := by
  induction bytes generalizing room with
  | nil => rfl
  | cons b bytes ih =>
    have hcell : (cell b).filter (· ≠ '\n') = cell b := by
      refine List.filter_eq_self.2 fun c hc => decide_eq_true ?_
      rintro rfl
      exact cell_lineEnd b hc
    rw [dumpFrom, lineChars, List.flatMap_cons, ← lineChars]
    split
    · rw [List.filter_append, hcell, List.filter_cons_of_neg (by simp), ih]
    · rw [List.filter_append, hcell, ih]

/-- **A dump loses nothing.** For any bytes it is their line with line ends put
in: one after each row of sixteen, and one after what is left, which is an
empty row if nothing is. Both texts give the bytes back: word by word, as
command bytes are typed, under either policy. -/
theorem dump_typed (bytes : List UInt8) :
    (dump bytes).toList.filter (· ≠ '\n') = (line bytes).toList ∧
      (∃ full rest, Rows bytes full rest ∧ full.length = bytes.length / 16 ∧ (rest = [] ↔ 16 ∣ bytes.length) ∧
        dump bytes = String.join (full.map fun row => line row ++ "\n") ++ (line rest ++ "\n")) ∧
      (dump bytes).toList.count '\n' = bytes.length / 16 + 1 ∧
      ∀ policy, CommandByte.parseWords policy (line bytes) = bytes.map .ok ∧
        CommandByte.parseWords policy (dump bytes) = bytes.map .ok := by
  obtain ⟨full, rest, hrows⟩ := exists_rows bytes
  obtain ⟨hlength, hrest⟩ := hrows.length
  refine ⟨?_, ⟨full, rest, hrows, by omega, ?_, hrows.dump⟩, ?_, fun policy => ⟨?_, ?_⟩⟩
  · rw [dump, String.toList_ofList, filter_dumpFrom, line, String.toList_ofList]
  · rw [← List.length_eq_zero_iff]
    omega
  · rw [dump, String.toList_ofList, hrows.count]
    omega
  · exact parse_words policy (by rw [line, String.toList_ofList, words_lineChars])
  · exact parse_words policy (by rw [dump, String.toList_ofList, words_dumpFrom])

end Hex
end MemsProbe
