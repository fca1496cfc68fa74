/-
The name at the end of a path.

A path is its segments with slashes between them. A segment that is empty
or a single dot leads nowhere, and one of two dots leads back up, so
neither is a name.
-/
namespace MemsProbe.Path

/-- The segments of a path; a path without a slash is one. -/
def segments : List Char → List (List Char)
  | [] => [[]]
  | c :: cs =>
    if c = '/' then [] :: segments cs
    else
      match segments cs with
      | [] => [[c]]
      | segment :: rest => (c :: segment) :: rest

/-- Whether a segment leads anywhere. -/
def leads (segment : List Char) : Bool :=
  !segment.isEmpty && segment != ['.']

/-- The last segment that leads anywhere, unless it leads up. -/
def fileName? (path : String) : Option String :=
  match ((segments path.toList).filter leads).getLast? with
  | none => none
  | some segment => if segment = ['.', '.'] then none else some (String.ofList segment)

end MemsProbe.Path
