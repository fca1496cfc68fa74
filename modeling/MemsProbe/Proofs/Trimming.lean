/-
Texts without the blanks at their ends.

`Trimmed text inner` says what such a text is, without the way to find it: it
lies in the other between blanks alone, and neither begins nor ends with one.
There is exactly one for every text, and trimming finds it (`trimmed_iff`).
-/
import Mathlib.Data.List.DropRight
import MemsProbe.Text.Blank

namespace MemsProbe.Text

/-- The text between the blanks at the ends of another. -/
structure Trimmed (text inner : List Char) : Prop where
  within : ∃ before after, text = before ++ (inner ++ after) ∧ (∀ c ∈ before, isBlank c = true) ∧
    ∀ c ∈ after, isBlank c = true
  begins : ∀ c ∈ inner.head?, isBlank c = false
  ends : ∀ c ∈ inner.getLast?, isBlank c = false

section

variable {p : Char → Bool} {before rest : List Char}

theorem head?_dropWhile (p : Char → Bool) (s : List Char) : ∀ c ∈ (s.dropWhile p).head?, p c = false := by
  intro c hc
  have hstop := List.head?_dropWhile_not p s
  rwa [Option.mem_def.1 hc] at hstop

theorem dropWhile_of_head? (hrest : ∀ c ∈ rest.head?, p c = false) : rest.dropWhile p = rest := by
  cases rest with
  | nil => rfl
  | cons c rest =>
    have hc : p c = false := hrest c rfl
    rw [List.dropWhile_cons_of_neg (by simp [hc])]

theorem dropWhile_split (hbefore : ∀ c ∈ before, p c = true) (hrest : ∀ c ∈ rest.head?, p c = false) :
    (before ++ rest).dropWhile p = rest := by
  rw [List.dropWhile_append_of_pos hbefore, dropWhile_of_head? hrest]

theorem takeWhile_split (hbefore : ∀ c ∈ before, p c = true) (hrest : ∀ c ∈ rest.head?, p c = false) :
    (before ++ rest).takeWhile p = before := by
  have hall := List.takeWhile_append_dropWhile (p := p) (l := before ++ rest)
  rw [dropWhile_split hbefore hrest] at hall
  exact List.append_cancel_right hall

end

theorem trim_trimmed (text : List Char) : Trimmed text (trim text) where
  within := by
    refine ⟨text.takeWhile isBlank, (trimStart text).rtakeWhile isBlank, ?_, ?_, ?_⟩
    · have hend : trim text ++ (trimStart text).rtakeWhile isBlank = trimStart text :=
        List.rdropWhile_append_rtakeWhile
      rw [hend]
      exact List.takeWhile_append_dropWhile.symm
    · exact fun c hc => List.mem_takeWhile_imp hc
    · exact fun c hc => List.mem_rtakeWhile_imp hc
  begins := by
    intro c hc
    obtain ⟨after, hafter⟩ : trim text <+: trimStart text := List.rdropWhile_prefix isBlank (trimStart text)
    have hhead : (trimStart text).head? = some c := by
      rw [← hafter, List.head?_append, Option.mem_def.1 hc, Option.some_or]
    exact head?_dropWhile isBlank text c hhead
  ends := by
    intro c hc
    obtain ⟨hne, rfl⟩ := List.mem_getLast?_eq_getLast hc
    exact Bool.eq_false_iff.2 (List.rdropWhile_last_not isBlank (trimStart text) hne)

theorem Trimmed.eq_trim {text inner : List Char} (h : Trimmed text inner) : inner = trim text := by
  obtain ⟨before, after, rfl, hbefore, hafter⟩ := h.within
  rw [trim, trimStart, List.dropWhile_append_of_pos hbefore]
  cases inner with
  | nil =>
    have hnone : after.dropWhile isBlank = [] := List.dropWhile_eq_nil_iff.2 hafter
    rw [List.nil_append, hnone]
    rfl
  | cons c inner =>
    have hhead : ∀ b ∈ (c :: inner ++ after).head?, isBlank b = false := h.begins
    have hlast : ∀ b ∈ (c :: inner).reverse.head?, isBlank b = false := by
      rw [List.head?_reverse]
      exact h.ends
    have hafter' : ∀ b ∈ after.reverse, isBlank b = true := fun b hb => hafter b (List.mem_reverse.1 hb)
    rw [dropWhile_of_head? hhead, trimEnd, List.reverse_append, dropWhile_split hafter' hlast, List.reverse_reverse]

/-- There is one such text, and trimming finds it. -/
theorem trimmed_iff {text inner : List Char} : Trimmed text inner ↔ inner = trim text :=
  ⟨Trimmed.eq_trim, fun h => h ▸ trim_trimmed text⟩

theorem Trimmed.self {text inner : List Char} (h : Trimmed text inner) : Trimmed inner inner where
  within := ⟨[], [], by simp, nofun, nofun⟩
  begins := h.begins
  ends := h.ends

theorem trimmed_of_unblank {text : List Char} (h : ∀ c ∈ text, isBlank c = false) : Trimmed text text where
  within := ⟨[], [], by simp, nofun, nofun⟩
  begins := fun c hc => h c (List.mem_of_head? hc)
  ends := fun c hc => h c (List.mem_of_getLast? hc)

end MemsProbe.Text
