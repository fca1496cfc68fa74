/-
What filling in placeholders does to a text.

A text falls into pieces, read from the left: placeholders, each up to the
next closing brace, and single characters (`Scans`). How it falls is a matter
of the text alone, so a value that is put in cannot make for a new
placeholder. `fill_scans` says that filling replaces the pieces one by one: a
placeholder by the value of its variable if that is set (`IsSet`), and
everything else by itself.
-/
import Mathlib.Data.List.Forall2
import MemsProbe.Proofs.Trimming
import MemsProbe.Text.Placeholder

namespace MemsProbe.Placeholder

/-! ## Variables -/

/-- An entry of an environment as one text. -/
def entryText (entry : String × String) : List Char :=
  entry.1.toList ++ '=' :: entry.2.toList

/-- The variable has the value: the first entry that begins with the name and
an equals sign goes on with it. -/
inductive IsSet (name value : List Char) : Values → Prop
  | here : entryText entry = name ++ '=' :: value → IsSet name value (entry :: values)
  | later : (∀ other, entryText entry ≠ name ++ '=' :: other) → IsSet name value values →
      IsSet name value (entry :: values)

section

variable {name value : List Char} {entry : String × String} {values : Values}

theorem valueIn_eq_some_iff :
    valueIn (String.ofList name) entry = some (String.ofList value) ↔ entryText entry = name ++ '=' :: value := by
  have htext : (entry.1 ++ "=" ++ entry.2).toList = entryText entry := by simp [entryText]
  have hname : (String.ofList name ++ "=").toList = name ++ ['='] := by simp
  simp only [valueIn, htext, hname, Option.map_eq_some_iff, List.isPrefixOf?_eq_some_iff_append_eq,
    String.ofList_inj, exists_eq_right]
  constructor
  · intro h
    simpa using h.symm
  · intro h
    simpa using h.symm

theorem valueIn_eq_none_iff :
    valueIn (String.ofList name) entry = none ↔ ∀ value, entryText entry ≠ name ++ '=' :: value := by
  rw [Option.eq_none_iff_forall_ne_some]
  constructor
  · intro h value hvalue
    exact h (String.ofList value) (valueIn_eq_some_iff.2 hvalue)
  · intro h found hfound
    rw [← String.ofList_toList (s := found)] at hfound
    exact h found.toList (valueIn_eq_some_iff.1 hfound)

theorem isSet_iff : IsSet name value values ↔ values.get? (String.ofList name) = some (String.ofList value) := by
  induction values with
  | nil =>
    constructor
    · nofun
    · nofun
  | cons entry values ih =>
    rw [Values.get?, List.findSome?_cons]
    cases hentry : valueIn (String.ofList name) entry with
    | some found =>
      dsimp only
      rw [← hentry, valueIn_eq_some_iff]
      constructor
      · intro h
        cases h with
        | here hvalue => exact hvalue
        | later hother =>
          rw [valueIn_eq_none_iff.2 hother] at hentry
          cases hentry
      · exact .here
    | none =>
      have hother := valueIn_eq_none_iff.1 hentry
      constructor
      · intro h
        cases h with
        | here hvalue => exact absurd hvalue (hother _)
        | later _ hvalues => exact ih.1 hvalues
      · intro h
        exact .later hother (ih.2 h)

theorem IsSet.unique {other : List Char} (h : IsSet name value values) (h' : IsSet name other values) : value = other := by
  rw [isSet_iff] at h h'
  rw [h, Option.some.injEq, String.ofList_inj] at h'
  exact h'

end

/-! ## Pieces -/

/-- What can stand between the braces of a placeholder. -/
def IsName (name : List Char) : Prop :=
  name ≠ [] ∧ '\x7d' ∉ name

instance (name : List Char) : Decidable (IsName name) :=
  inferInstanceAs (Decidable (_ ∧ _))

inductive Piece where
  | plain (c : Char)
  | placeholder (name : List Char)
  deriving DecidableEq

/-- A piece as it stands in the text. -/
def Piece.text : Piece → List Char
  | plain c => [c]
  | placeholder name => written name

/-- The pieces of a text, read from the left. -/
inductive Scans : List Char → List Piece → Prop
  | done : Scans [] []
  | placeholder : IsName name → Scans rest pieces → Scans (written name ++ rest) (.placeholder name :: pieces)
  | plain : (∀ name rest, IsName name → c :: cs ≠ written name ++ rest) → Scans cs pieces →
      Scans (c :: cs) (.plain c :: pieces)

/-- What a piece becomes. -/
inductive Piece.Becomes (values : Values) : Piece → List Char → Prop
  | plain (c : Char) : Becomes values (.plain c) [c]
  | set : IsSet name value values → Becomes values (.placeholder name) value
  | unset : (∀ value, ¬ IsSet name value values) → Becomes values (.placeholder name) (written name)

section

variable {values : Values} {name cs s : List Char} {c : Char} {pieces before after : List Piece}

/-- What is read up to a brace is shorter than all there is just if there is
a brace. -/
theorem exists_brace (h : (s.takeWhile (· != '\x7d')).length ≠ s.length) :
    ∃ rest, s = s.takeWhile (· != '\x7d') ++ '\x7d' :: rest := by
  have hsplit : s.takeWhile (· != '\x7d') ++ s.dropWhile (· != '\x7d') = s := List.takeWhile_append_dropWhile
  rcases hrest : s.dropWhile (· != '\x7d') with _ | ⟨d, rest⟩
  · rw [hrest, List.append_nil] at hsplit
    rw [hsplit] at h
    exact absurd rfl h
  · have hd := Text.head?_dropWhile (· != '\x7d') s d (by rw [hrest]; rfl)
    obtain rfl : d = '\x7d' := by simpa using hd
    rw [hrest] at hsplit
    exact ⟨rest, hsplit.symm⟩

theorem name?_written (hname : IsName name) (rest : List Char) : name? (written name ++ rest) = some name := by
  obtain ⟨hne, hmem⟩ := hname
  have htaken : (name ++ '\x7d' :: rest).takeWhile (· != '\x7d') = name := by
    refine Text.takeWhile_split (fun c hc => ?_) fun c hc => ?_
    · rw [bne_iff_ne]
      rintro rfl
      exact hmem hc
    · obtain rfl : '\x7d' = c := Option.some.inj hc
      rfl
  simp [written, name?, htaken, hne]

theorem exists_written (h : name? s = some name) : IsName name ∧ ∃ rest, s = written name ++ rest := by
  unfold name? at h
  split at h
  next rest =>
    dsimp only at h
    split at h
    next => cases h
    next hname =>
      obtain rfl := Option.some.inj h
      simp only [Bool.or_eq_true, List.isEmpty_iff, beq_iff_eq, not_or] at hname
      obtain ⟨hne, hlength⟩ := hname
      obtain ⟨more, hmore⟩ := exists_brace hlength
      refine ⟨⟨hne, fun hmem => ?_⟩, more, ?_⟩
      · have hbrace := List.mem_takeWhile_imp hmem
        simp at hbrace
      · simp only [written, List.cons_append, List.append_assoc, List.nil_append]
        rw [← hmore]
  next => cases h

theorem name?_eq_some_iff : name? s = some name ↔ IsName name ∧ ∃ rest, s = written name ++ rest := by
  constructor
  · exact exists_written
  · rintro ⟨hname, rest, rfl⟩
    exact name?_written hname rest

theorem name?_eq_none_iff : name? s = none ↔ ∀ name rest, IsName name → s ≠ written name ++ rest := by
  rw [Option.eq_none_iff_forall_ne_some]
  constructor
  · intro h name rest hname hs
    exact h name (name?_eq_some_iff.2 ⟨hname, rest, hs⟩)
  · intro h name hname
    obtain ⟨hname, rest, hs⟩ := name?_eq_some_iff.1 hname
    exact h name rest hname hs

theorem exists_scans (s : List Char) : ∃ pieces, Scans s pieces := by
  induction hlength : s.length using Nat.strongRecOn generalizing s with
  | ind n ih =>
    rcases s with _ | ⟨c, cs⟩
    · exact ⟨[], .done⟩
    cases hname : name? (c :: cs) with
    | none =>
      obtain ⟨pieces, h⟩ := ih cs.length (by simp at hlength; omega) cs rfl
      exact ⟨_, .plain (name?_eq_none_iff.1 hname) h⟩
    | some name =>
      obtain ⟨hname, rest, hs⟩ := name?_eq_some_iff.1 hname
      have hshorter : rest.length < n := by
        rw [← hlength, hs]
        simp [written]
        omega
      obtain ⟨pieces, h⟩ := ih rest.length hshorter rest rfl
      rw [hs]
      exact ⟨_, .placeholder hname h⟩

/-- Nothing of the text is lost, and its order is kept. -/
theorem Scans.text (h : Scans s pieces) : pieces.flatMap Piece.text = s := by
  induction h with
  | done => rfl
  | placeholder _ _ ih => rw [List.flatMap_cons, ih]; rfl
  | plain _ _ ih => rw [List.flatMap_cons, ih]; rfl

/-- What is left to be read is read as a text of its own. -/
theorem Scans.left (h : Scans s (before ++ after)) : Scans (after.flatMap Piece.text) after := by
  induction before generalizing s with
  | nil =>
    have htext : after.flatMap Piece.text = s := h.text
    rwa [htext]
  | cons piece before ih =>
    cases h with
    | placeholder _ h => exact ih h
    | plain _ h => exact ih h

/-- Without a closing brace there is no placeholder. -/
theorem Scans.unclosed (h : Scans s pieces) (hs : '\x7d' ∉ s) : ∀ piece ∈ pieces, ∃ c, piece = .plain c := by
  induction h with
  | done => nofun
  | placeholder => simp [written] at hs
  | @plain c cs pieces _ _ ih =>
    rw [List.forall_mem_cons]
    exact ⟨⟨c, rfl⟩, ih fun hmem => hs (List.mem_cons_of_mem c hmem)⟩

/-- Where no placeholder begins, a plain character is read. -/
theorem scans_plain_iff (hnone : name? (c :: cs) = none) :
    Scans (c :: cs) pieces ↔ ∃ more, pieces = .plain c :: more ∧ Scans cs more := by
  have hnot := name?_eq_none_iff.1 hnone
  constructor
  · intro h
    generalize hs : c :: cs = text at h
    cases h with
    | done => cases hs
    | @placeholder name rest _ hname _ => exact absurd hs (hnot name rest hname)
    | @plain _ _ more _ h =>
      obtain ⟨rfl, rfl⟩ := List.cons.inj hs
      exact ⟨more, rfl, h⟩
  · rintro ⟨more, rfl, h⟩
    exact .plain hnot h

/-- Braces with nothing between them are no placeholder. -/
theorem Scans.empty (h : Scans ('$' :: '\x7b' :: '\x7d' :: s) pieces) :
    ∃ more, pieces = .plain '$' :: .plain '\x7b' :: .plain '\x7d' :: more := by
  obtain ⟨opened, hopened, h⟩ := (scans_plain_iff rfl).1 h
  obtain ⟨closed, hclosed, h⟩ := (scans_plain_iff rfl).1 h
  obtain ⟨more, hmore, -⟩ := (scans_plain_iff rfl).1 h
  exact ⟨more, by rw [hopened, hclosed, hmore]⟩

/-! ## Filling -/

theorem fillAfter_eq_drop (values : Values) (skip : Nat) (s : List Char) :
    fillAfter values skip s = fillAfter values 0 (s.drop skip) := by
  induction skip generalizing s with
  | zero => rfl
  | succ skip ih =>
    cases s with
    | nil => rfl
    | cons c cs => exact ih cs

theorem fillAfter_placeholder (hname : IsName name) (rest : List Char) :
    fillAfter values 0 (written name ++ rest) = replacement values name ++ fillAfter values 0 rest := by
  have hsome := name?_written hname rest
  have hrest : ('\x7b' :: (name ++ ['\x7d'] ++ rest)).drop (name.length + 2) = rest := by simp
  simp only [written, List.cons_append] at hsome ⊢
  rw [fillAfter, hsome]
  dsimp only
  rw [fillAfter_eq_drop, hrest]

theorem fillAfter_plain (hnone : ∀ name rest, IsName name → c :: cs ≠ written name ++ rest) :
    fillAfter values 0 (c :: cs) = c :: fillAfter values 0 cs := by
  rw [fillAfter, name?_eq_none_iff.2 hnone]

theorem replacement_becomes (values : Values) (name : List Char) :
    Piece.Becomes values (.placeholder name) (replacement values name) := by
  unfold replacement
  split
  · next value hvalue => exact .set (isSet_iff.2 (by rw [hvalue, String.ofList_toList]))
  · next hvalue =>
    refine .unset fun value hset => ?_
    rw [isSet_iff, hvalue] at hset
    cases hset

theorem Piece.Becomes.unique {piece : Piece} {part part' : List Char} (h : piece.Becomes values part)
    (h' : piece.Becomes values part') : part = part' := by
  cases h with
  | plain => cases h' with | plain => rfl
  | set hset =>
    cases h' with
    | set hset' => exact hset.unique hset'
    | unset hunset => exact absurd hset (hunset _)
  | unset hunset =>
    cases h' with
    | set hset => exact absurd hset (hunset _)
    | unset => rfl

/-- The pieces are filled one by one. -/
theorem Scans.fillAfter (h : Scans s pieces) (values : Values) :
    ∃ parts, List.Forall₂ (Piece.Becomes values) pieces parts ∧ fillAfter values 0 s = parts.flatten := by
  induction h with
  | done => exact ⟨[], .nil, rfl⟩
  | @placeholder name rest pieces hname _ ih =>
    obtain ⟨parts, hparts, hfill⟩ := ih
    refine ⟨replacement values name :: parts, .cons (replacement_becomes values name) hparts, ?_⟩
    rw [fillAfter_placeholder hname, hfill, List.flatten_cons]
  | @plain c cs pieces hnone _ ih =>
    obtain ⟨parts, hparts, hfill⟩ := ih
    refine ⟨[c] :: parts, .cons (.plain c) hparts, ?_⟩
    rw [fillAfter_plain hnone, hfill]
    rfl

/-- Only the values of the names in a text matter for it. -/
theorem fillAfter_congr {others : Values} (skip : Nat)
    (h : ∀ name ∈ namesAfter skip s, values.get? name = others.get? name) :
    fillAfter values skip s = fillAfter others skip s := by
  fun_induction namesAfter skip s with
  | case1 => simp only [fillAfter]
  | case2 skip c cs ih => exact ih h
  | case3 c cs name hname ih =>
    obtain ⟨hvalue, hrest⟩ := List.forall_mem_cons.1 h
    have hreplacement : replacement values name = replacement others name := by
      simp only [replacement, hvalue]
    simp only [fillAfter, hname, hreplacement, ih hrest]
  | case4 c cs hname ih => simp only [fillAfter, hname, ih h]

theorem fill_congr {others : Values} {text : String}
    (h : ∀ name ∈ names text, values.get? name = others.get? name) : fill values text = fill others text :=
  congrArg String.ofList (fillAfter_congr 0 h)

theorem parts_unique {parts parts' : List (List Char)} (h : List.Forall₂ (Piece.Becomes values) pieces parts)
    (h' : List.Forall₂ (Piece.Becomes values) pieces parts') : parts = parts' := by
  induction h generalizing parts' with
  | nil =>
    cases h'
    rfl
  | cons hpart _ ih =>
    cases h' with
    | cons hpart' hparts' => rw [hpart.unique hpart', ih hparts']

/-- Without a variable that is set, every piece stays. -/
theorem parts_of_unset
    (hunset : ∀ name, Piece.placeholder name ∈ pieces → ∀ value, ¬ IsSet name value values) :
    List.Forall₂ (Piece.Becomes values) pieces (pieces.map Piece.text) := by
  induction pieces with
  | nil => exact .nil
  | cons piece pieces ih =>
    have hrest := ih fun name hmem => hunset name (List.mem_cons_of_mem piece hmem)
    cases piece with
    | plain c => exact .cons (.plain c) hrest
    | placeholder name => exact .cons (.unset (hunset name List.mem_cons_self)) hrest

/-- **Filling goes over a text once, from left to right.** The text falls into
pieces, whatever the environment is, and is made up of them in their order;
each is replaced on its own, and nothing else is done. So a value stands as it
is, also if it looks like a placeholder, and a text that names no variable
that is set stays as it is. Wherever the reading has come to, empty braces and
what no brace closes any more are plain characters. -/
theorem fill_scans (text : String) :
    (∃ pieces, Scans text.toList pieces) ∧
      ∀ pieces, Scans text.toList pieces →
        pieces.flatMap Piece.text = text.toList ∧
          (∀ values : Values,
            (∃ parts, List.Forall₂ (Piece.Becomes values) pieces parts) ∧
              (∀ parts, List.Forall₂ (Piece.Becomes values) pieces parts →
                (fill values text).toList = parts.flatten) ∧
              ((∀ name, Piece.placeholder name ∈ pieces → ∀ value, ¬ IsSet name value values) →
                fill values text = text)) ∧
          ∀ before after, pieces = before ++ after →
            (∀ rest, after.flatMap Piece.text = '$' :: '\x7b' :: '\x7d' :: rest →
              ∃ more, after = .plain '$' :: .plain '\x7b' :: .plain '\x7d' :: more) ∧
            ('\x7d' ∉ after.flatMap Piece.text → ∀ piece ∈ after, ∃ c, piece = .plain c) := by
  refine ⟨exists_scans text.toList, fun pieces h => ⟨h.text, fun values => ?_, ?_⟩⟩
  · obtain ⟨parts, hparts, hfill⟩ := h.fillAfter values
    have hall : ∀ parts', List.Forall₂ (Piece.Becomes values) pieces parts' →
        (fill values text).toList = parts'.flatten := by
      intro parts' hparts'
      rw [parts_unique hparts' hparts, fill, String.toList_ofList, hfill]
    refine ⟨⟨parts, hparts⟩, hall, fun hunset => ?_⟩
    have hsame := hall _ (parts_of_unset hunset)
    rw [← List.flatMap_def, h.text] at hsame
    exact String.toList_inj.1 hsame
  · rintro before after rfl
    have hleft := h.left
    constructor
    · intro rest hrest
      rw [hrest] at hleft
      exact hleft.empty
    · exact hleft.unclosed

/-- Of two variables, the first has the placeholder of the second for its
value. -/
def nested : Values :=
  [("A", "$\x7bB\x7d"), ("B", "2")]

/-- Its value is not looked through again; a name may hold what a placeholder
begins with; and what is empty or not closed stays. -/
theorem nested_scans :
    (fill nested "a$\x7bA\x7d$\x7bB\x7d$\x7b\x7d$\x7b$\x7b\n\x7d$\x7bA").toList =
      "a$\x7bB\x7d2$\x7b\x7d$\x7b$\x7b\n\x7d$\x7bA".toList := by
  let pieces : List Piece :=
    [.plain 'a', .placeholder ['A'], .placeholder ['B'], .plain '$', .plain '\x7b', .plain '\x7d',
      .placeholder ['$', '\x7b', '\n'], .plain '$', .plain '\x7b', .plain 'A']
  have hplain : ∀ {c : Char} {cs : List Char} {pieces : List Piece}, name? (c :: cs) = none → Scans cs pieces →
      Scans (c :: cs) (.plain c :: pieces) :=
    fun hnone h => (scans_plain_iff hnone).2 ⟨_, rfl, h⟩
  have htext : "a$\x7bA\x7d$\x7bB\x7d$\x7b\x7d$\x7b$\x7b\n\x7d$\x7bA".toList =
      'a' :: (written ['A'] ++ (written ['B'] ++ '$' :: '\x7b' :: '\x7d' ::
        (written ['$', '\x7b', '\n'] ++ ['$', '\x7b', 'A']))) := by
    decide
  have hscans : Scans "a$\x7bA\x7d$\x7bB\x7d$\x7b\x7d$\x7b$\x7b\n\x7d$\x7bA".toList pieces := by
    rw [htext]
    refine hplain rfl (.placeholder (by decide) (.placeholder (by decide) ?_))
    refine hplain rfl (hplain rfl (hplain rfl (.placeholder (by decide) ?_)))
    exact hplain rfl (hplain rfl (hplain rfl .done))
  have hunset : ∀ value, ¬ IsSet ['$', '\x7b', '\n'] value nested := by
    intro value hset
    rw [isSet_iff] at hset
    cases hset
  have hparts : List.Forall₂ (Piece.Becomes nested) pieces
      [['a'], "$\x7bB\x7d".toList, ['2'], ['$'], ['\x7b'], ['\x7d'], written ['$', '\x7b', '\n'], ['$'], ['\x7b'], ['A']] :=
    .cons (.plain _) <| .cons (.set (isSet_iff.2 rfl)) <| .cons (.set (isSet_iff.2 rfl)) <|
      .cons (.plain _) <| .cons (.plain _) <| .cons (.plain _) <| .cons (.unset hunset) <|
      .cons (.plain _) <| .cons (.plain _) <| .cons (.plain _) .nil
  obtain ⟨-, hfill⟩ := fill_scans "a$\x7bA\x7d$\x7bB\x7d$\x7b\x7d$\x7b$\x7b\n\x7d$\x7bA"
  obtain ⟨-, hvalues, -⟩ := hfill pieces hscans
  exact ((hvalues nested).2.1 _ hparts).trans (by decide)

end

end MemsProbe.Placeholder
