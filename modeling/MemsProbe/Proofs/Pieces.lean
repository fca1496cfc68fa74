/-
Texts cut into pieces.

The words of a text are what stands between its blanks, and its lines what
stands before its line ends. Pieces that are put together with a character
that none of them holds can be had back by cutting at that character, so the
text says which pieces they were (`intercalate_inj`).
-/
import MemsProbe.Text.Blank

namespace MemsProbe.Text

/-! ## Words -/

/-- What stands between the blanks of a text. -/
def words (s : List Char) : List (List Char) :=
  (s.splitOnP isBlank).filter (!·.isEmpty)

theorem words_nil : words [] = [] := by
  simp [words, List.splitOnP_nil]

theorem words_append_blank {c : Char} (hc : isBlank c = true) (s t : List Char) :
    words (s ++ c :: t) = words s ++ words t := by
  simp only [words, List.splitOnP_append_cons s t hc, List.filter_append]

theorem words_of_unblank {s : List Char} (hne : s ≠ []) (h : ∀ c ∈ s, isBlank c = false) : words s = [s] := by
  simp [words, List.splitOnP_eq_singleton h, hne]

/-! ## Pieces -/

/-- Pieces that do not hold the character between them are known from the text. -/
theorem intercalate_inj {sep : Char} {pieces others : List (List Char)} (hne : pieces ≠ []) (hne' : others ≠ [])
    (h : ∀ piece ∈ pieces, sep ∉ piece) (h' : ∀ piece ∈ others, sep ∉ piece)
    (heq : [sep].intercalate pieces = [sep].intercalate others) : pieces = others := by
  rw [← List.splitOn_intercalate sep h hne, heq, List.splitOn_intercalate sep h' hne']

theorem mem_intercalate {sep c : Char} {pieces : List (List Char)} (h : c ∈ [sep].intercalate pieces) :
    c = sep ∨ ∃ piece ∈ pieces, c ∈ piece := by
  induction pieces with
  | nil => simp at h
  | cons piece pieces ih =>
    by_cases hne : pieces = []
    · subst hne
      exact .inr ⟨piece, by simp, by simpa using h⟩
    · rw [List.intercalate_cons_of_ne_nil hne, List.mem_append, List.mem_append, List.mem_singleton] at h
      obtain (h | h) | h := h
      · exact .inr ⟨piece, by simp, h⟩
      · exact .inl h
      · exact (ih h).imp_right fun ⟨other, hother, hc⟩ => ⟨other, List.mem_cons_of_mem _ hother, hc⟩

/-- Pieces around one of them: before it each is followed by what stands
between them, after it each comes after that. -/
theorem intercalate_around (sep : Char) (before : List (List Char)) (piece : List Char) (after : List (List Char)) :
    [sep].intercalate (before ++ piece :: after) =
      before.flatMap (· ++ [sep]) ++ (piece ++ after.flatMap (sep :: ·)) := by
  induction before with
  | nil =>
    induction after generalizing piece with
    | nil => simp
    | cons next after ih =>
      simp only [List.nil_append, List.flatMap_nil] at ih ⊢
      rw [List.intercalate_cons_of_ne_nil (by simp), ih next]
      simp
  | cons first before ih =>
    rw [List.cons_append, List.intercalate_cons_of_ne_nil (by simp), ih]
    simp

/-- Pieces that are each closed by a character stand between such characters. -/
theorem closed_append (sep : Char) (pieces : List (List Char)) (rest : List Char) :
    pieces.flatMap (· ++ [sep]) ++ rest = [sep].intercalate (pieces ++ [rest]) := by
  simp [intercalate_around]

/-- The lines of a text, up to its last line end. -/
def closedLines (s : List Char) : List (List Char) :=
  (s.splitOn '\n').dropLast

theorem closedLines_closed {lines : List (List Char)} (h : ∀ line ∈ lines, '\n' ∉ line) :
    closedLines (lines.flatMap (· ++ ['\n'])) = lines := by
  have hall : ∀ line ∈ lines ++ [[]], '\n' ∉ line := by
    simpa [or_imp, forall_and] using h
  rw [closedLines, ← List.append_nil (lines.flatMap _), closed_append, List.splitOn_intercalate '\n' hall (by simp),
    List.dropLast_concat]

end MemsProbe.Text
