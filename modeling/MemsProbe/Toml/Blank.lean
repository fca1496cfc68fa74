/-
What may stand between the parts of a TOML text: blanks, line ends and
comments.

A carriage return counts only as part of a line end. Control characters
other than the tab are refused, in comments too.
-/
namespace MemsProbe.Toml

/-- A reader takes something off the front of a text and gives the rest. -/
abbrev Reader (α : Type) := List Char → Option (α × List Char)

def isSpace (c : Char) : Bool :=
  c == ' ' || c == '\t'

/-- Whether a character may stand for itself: all but control characters,
the tab excepted. -/
def isPlain (c : Char) : Bool :=
  c == '\t' || (0x20 ≤ c.toNat && c.toNat != 0x7F)

/-- The text after blanks. -/
def dropSpaces (cs : List Char) : List Char :=
  cs.dropWhile isSpace

/-- The text after a line end, if one comes next. -/
def newline? : List Char → Option (List Char)
  | '\n' :: cs => some cs
  | '\r' :: '\n' :: cs => some cs
  | _ => none

/-- The text after blanks, line ends and comments. -/
def dropBlank (inComment : Bool) : List Char → Option (List Char)
  | [] => some []
  | '\n' :: cs => dropBlank false cs
  | '\r' :: '\n' :: cs => dropBlank false cs
  | c :: cs =>
    if inComment then if isPlain c then dropBlank true cs else none
    else if isSpace c then dropBlank false cs
    else if c == '#' then dropBlank true cs
    else some (c :: cs)

/-- The text after a comment, up to the line end. -/
def dropComment : List Char → Option (List Char)
  | [] => some []
  | c :: cs =>
    if (newline? (c :: cs)).isSome then some (c :: cs)
    else if isPlain c then dropComment cs
    else none

/-- The text after the end of a line that nothing but blanks and a comment
may still stand on. -/
def endLine (cs : List Char) : Option (List Char) := do
  let rest ←
    match dropSpaces cs with
    | '#' :: comment => dropComment comment
    | cs => some cs
  if rest.isEmpty then some [] else newline? rest

end MemsProbe.Toml
