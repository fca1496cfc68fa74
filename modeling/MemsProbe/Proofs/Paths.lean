/-
The name at the end of a path.

`EndsIn path name` says what that name is without cutting the path up: it
stands between slashes, and after it come only slashes and single dots, which
lead nowhere. There is no more than one for a path, and `fileName?` finds it
(`fileName?_eq_some_iff`).
-/
import MemsProbe.Proofs.Pieces
import MemsProbe.Text.Path

namespace MemsProbe.Path

/-! ## Names -/

/-- What leads nowhere after the name at the end of a path: slashes, each of
which a single dot may follow. -/
inductive Idle : List Char → Prop
  | nil : Idle []
  | slash : s = [] ∨ s = ['.'] → Idle rest → Idle ('/' :: (s ++ rest))

/-- The path ends in the name. -/
structure EndsIn (path name : List Char) : Prop where
  within : ∃ before after, path = before ++ (name ++ after) ∧ (∀ c ∈ before.getLast?, c = '/') ∧ Idle after
  whole : '/' ∉ name
  leads : name ≠ [] ∧ name ≠ ['.']
  not_up : name ≠ ['.', '.']

theorem leads_iff {s : List Char} : leads s = true ↔ s ≠ [] ∧ s ≠ ['.'] := by
  simp [leads]

theorem leads_eq_false_iff {s : List Char} : leads s = false ↔ s = [] ∨ s = ['.'] := by
  simp [leads, Decidable.or_iff_not_imp_left]

/-! ## Segments -/

section

variable {path name s : List Char}

theorem segments_eq_splitOn (s : List Char) : segments s = s.splitOn '/' := by
  induction s with
  | nil => rfl
  | cons c s ih =>
    obtain ⟨segment, rest, hs⟩ := List.exists_cons_of_ne_nil (List.splitOnP_ne_nil (· == '/') s)
    rw [segments, ih, List.splitOn, List.splitOn, List.splitOnP_cons_eq_if_modifyHead, hs]
    simp

theorem segments_append_slash (s t : List Char) : segments (s ++ '/' :: t) = segments s ++ segments t := by
  simp only [segments_eq_splitOn, List.splitOn]
  exact List.splitOnP_append_cons s t rfl

theorem segments_of_notMem (h : '/' ∉ s) : segments s = [s] := by
  rw [segments_eq_splitOn]
  exact List.splitOn_eq_singleton h

theorem notMem_of_mem_segments (h : s ∈ segments path) : '/' ∉ s := by
  fun_induction segments path generalizing s with
  | case1 => simp_all
  | case2 path ih =>
    obtain rfl | h := List.mem_cons.1 h
    · exact List.not_mem_nil
    · exact ih h
  | case3 c path hc hnil =>
    obtain rfl := List.mem_singleton.1 h
    simpa using Ne.symm hc
  | case4 c path hc segment rest hpath ih =>
    rw [hpath] at ih
    obtain rfl | h := List.mem_cons.1 h
    · have hsegment : '/' ∉ segment := ih List.mem_cons_self
      simpa [hsegment] using Ne.symm hc
    · exact ih (List.mem_cons_of_mem segment h)

/-- The path is what its segments make with slashes between them. -/
theorem eq_of_segments {before after : List (List Char)} (h : segments path = before ++ name :: after) :
    path = before.flatMap (· ++ ['/']) ++ (name ++ after.flatMap ('/' :: ·)) := by
  rw [← Text.intercalate_around, ← h, segments_eq_splitOn]
  exact (List.intercalate_splitOn '/').symm

/-- Segments that lead nowhere, each with the slash before it. -/
theorem idle_of_segments {after : List (List Char)} (h : ∀ s ∈ after, leads s = false) :
    Idle (after.flatMap ('/' :: ·)) := by
  induction after with
  | nil => exact .nil
  | cons s after ih =>
    obtain ⟨hs, hafter⟩ := List.forall_mem_cons.1 h
    exact .slash (leads_eq_false_iff.1 hs) (ih hafter)

/-- A segment stays whole with what leads nowhere after it. -/
theorem Idle.segments {after : List Char} (h : Idle after) (hname : '/' ∉ name) :
    ∃ rest, segments (name ++ after) = name :: rest ∧ ∀ s ∈ rest, leads s = false := by
  induction h generalizing name with
  | nil => exact ⟨[], by rw [List.append_nil, segments_of_notMem hname], by simp⟩
  | @slash s _ hs _ ih =>
    have hwhole : '/' ∉ s := by rcases hs with rfl | rfl <;> decide
    obtain ⟨rest, hrest, hnone⟩ := ih hwhole
    refine ⟨s :: rest, ?_, List.forall_mem_cons.2 ⟨leads_eq_false_iff.2 hs, hnone⟩⟩
    rw [segments_append_slash, segments_of_notMem hname, hrest, List.singleton_append]

/-- The last segment that leads anywhere. -/
theorem getLast?_leading_eq_some_iff : ((segments path).filter leads).getLast? = some name ↔
    ∃ before after, segments path = before ++ name :: after ∧ leads name = true ∧ ∀ s ∈ after, leads s = false := by
  rw [List.getLast?_filter, List.find?_eq_some_iff_append]
  constructor
  · rintro ⟨hleads, after, before, hreverse, hafter⟩
    refine ⟨before.reverse, after.reverse, ?_, hleads, ?_⟩
    · have h := congrArg List.reverse hreverse
      simpa using h
    · simpa using hafter
  · rintro ⟨before, after, hsegments, hleads, hafter⟩
    exact ⟨hleads, after.reverse, before.reverse, by simp [hsegments], by simpa using hafter⟩

theorem endsIn_iff : EndsIn path name ↔
    ((segments path).filter leads).getLast? = some name ∧ name ≠ ['.', '.'] := by
  rw [getLast?_leading_eq_some_iff]
  constructor
  · rintro ⟨⟨before, after, rfl, hslash, hidle⟩, hname, hleads, hup⟩
    obtain ⟨rest, hrest, hnone⟩ := hidle.segments hname
    refine ⟨?_, hup⟩
    obtain rfl | ⟨above, c, rfl⟩ := List.eq_nil_or_concat before
    · exact ⟨[], rest, hrest, leads_iff.2 hleads, hnone⟩
    · obtain rfl : c = '/' := hslash c (by simp)
      refine ⟨segments above, rest, ?_, leads_iff.2 hleads, hnone⟩
      rw [List.concat_eq_append, List.append_assoc, List.singleton_append, segments_append_slash, hrest]
  · rintro ⟨⟨before, after, hsegments, hleads, hafter⟩, hup⟩
    have hmem : name ∈ segments path := by simp [hsegments]
    have hslash : ∀ c ∈ (before.flatMap (· ++ ['/'])).getLast?, c = '/' := by
      obtain rfl | ⟨above, segment, rfl⟩ := List.eq_nil_or_concat before
      · simp
      · simp [eq_comm]
    exact ⟨⟨_, _, eq_of_segments hsegments, hslash, idle_of_segments hafter⟩, notMem_of_mem_segments hmem,
      leads_iff.1 hleads, hup⟩

end

/-- The name is found in every path that ends in one, and in no other. -/
theorem fileName?_eq_some_iff {path name : String} :
    fileName? path = some name ↔ EndsIn path.toList name.toList := by
  rw [endsIn_iff, fileName?]
  split
  next hnone => simp [hnone]
  next segment hsome =>
    rw [hsome, Option.some.injEq]
    split
    next hup =>
      subst hup
      constructor
      · nofun
      · rintro ⟨hname, hnot⟩
        exact absurd hname.symm hnot
    next hup =>
      rw [Option.some.injEq]
      constructor
      · rintro rfl
        rw [String.toList_ofList]
        exact ⟨rfl, hup⟩
      · rintro ⟨rfl, -⟩
        exact String.ofList_toList

theorem fileName?_eq_none_iff {path : String} :
    fileName? path = none ↔ ∀ name : String, ¬ EndsIn path.toList name.toList := by
  rw [Option.eq_none_iff_forall_ne_some]
  exact forall_congr' fun name => not_congr fileName?_eq_some_iff

end MemsProbe.Path
