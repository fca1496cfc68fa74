/-
A whole TOML text.

Values nest to a depth of eighty, and a key has at most eighty parts. Arrays
and inline tables may be spread over lines and may end with a comma; only a
key in them stays on one line. A line that is no header is an entry of the
table that the last header named.
-/
import MemsProbe.Toml.Scalar
import MemsProbe.Toml.Text

namespace MemsProbe.Toml

/-- How deep values may nest, and how many parts a key may have. -/
def nesting : Nat := 80

/-! ## Keys -/

def isBareKeyChar (c : Char) : Bool :=
  c.isAlphanum || c == '_' || c == '-'

/-- One part of a key. -/
def keyPart (cs : List Char) : Option (String × List Char) :=
  match lineText cs with
  | some found => some found
  | none =>
    let (bare, rest) := cs.span isBareKeyChar
    if bare.isEmpty then none else some (String.ofList bare, rest)

/-- A key: the parts before its last dot, and the last part. Blanks around
it and around its dots do not count. -/
def keyFrom : (dots : Nat) → (path : List String) → Reader (List String × String)
  | dots, path, cs => do
    let (part, rest) ← keyPart (dropSpaces cs)
    match dropSpaces rest, dots with
    | '.' :: rest, dots + 1 => keyFrom dots (path ++ [part]) rest
    | '.' :: _, 0 => none
    | rest, _ => some ((path, part), rest)

def key : Reader (List String × String) :=
  keyFrom (nesting - 1) []

/-! ## Values -/

/-- A key, an equals sign and a value, with what may be skipped on either
side of the sign. -/
def entry (skip : List Char → Option (List Char)) (value : Reader Value) :
    Reader ((List String × String) × Value) := fun cs => do
  let (k, cs) ← key cs
  let cs ← mark '=' (← skip cs)
  let (v, cs) ← value (← skip cs)
  return ((k, v), cs)

/-- The rest of an array, whose items so far are given with the last one
first. -/
def itemsFrom (value : Reader Value) : (left : Nat) → List Value → Reader (List Value)
  | 0, _, _ => none
  | left + 1, items, cs => do
    match ← dropBlank false cs with
    | ']' :: rest => some (items.reverse, rest)
    | cs =>
      let (v, cs) ← value cs
      match ← dropBlank false cs with
      | ',' :: rest => itemsFrom value left (v :: items) rest
      | ']' :: rest => some ((v :: items).reverse, rest)
      | _ => none

/-- The rest of an inline table, of which some entries are known. -/
def entriesFrom (value : Reader Value) : (left : Nat) → Entries → Reader Entries
  | 0, _, _ => none
  | left + 1, es, cs => do
    match ← dropBlank false cs with
    | '\x7d' :: rest => some (es, rest)
    | cs =>
      let (((path, k), v), cs) ← entry (dropBlank false) value cs
      match ← addAt path k v .inline es with
      | .table _ es =>
        match ← dropBlank false cs with
        | ',' :: rest => entriesFrom value left es rest
        | '\x7d' :: rest => some (es, rest)
        | _ => none
      | _ => none

/-- A value with at most so many levels of brackets. -/
def value : (levels : Nat) → Reader Value
  | 0, cs =>
    match cs with
    | '"' :: _ | '\'' :: _ => (quotedText cs).map fun (s, rest) => (.string s, rest)
    | _ => scalar cs
  | levels + 1, cs =>
    match cs with
    | '"' :: _ | '\'' :: _ => (quotedText cs).map fun (s, rest) => (.string s, rest)
    | '[' :: rest =>
      (itemsFrom (value levels) (rest.length + 1) [] rest).map fun (items, rest) =>
        (.array items, rest)
    | '\x7b' :: rest =>
      (entriesFrom (value levels) (rest.length + 1) [] rest).map fun (es, rest) =>
        (.table .inline es, rest)
    | _ => scalar cs

/-! ## Lines -/

/-- A document as far as it has been read. -/
structure Draft where
  root : Entries := []
  /-- The table that the last header named. -/
  current : List String := []

/-- Changes the table at the end of a path of headers. -/
def Draft.change (d : Draft) (path : List String) (f : Origin → Entries → Option Value) :
    Option Entries := do
  match ← descend .header f path .explicit d.root with
  | .table _ root => some root
  | _ => none

/-- The header of a table, after its opening bracket. -/
def header (cs : List Char) (d : Draft) : Option (Draft × List Char) := do
  let ((path, k), cs) ← key cs
  let rest ← endLine (← mark ']' cs)
  let root ← d.change path (openTable k)
  return (⟨root, path ++ [k]⟩, rest)

/-- The header of one of many tables, after its two opening brackets. -/
def tablesHeader (cs : List Char) (d : Draft) : Option (Draft × List Char) := do
  let ((path, k), cs) ← key cs
  let rest ← endLine (← mark ']' (← mark ']' cs))
  let root ← d.change path (addTable k)
  return (⟨root, path ++ [k]⟩, rest)

/-- A line with an entry. -/
def entryLine (cs : List Char) (d : Draft) : Option (Draft × List Char) := do
  let (((path, k), v), cs) ← entry (some ∘ dropSpaces) (value nesting) cs
  let rest ← endLine cs
  let root ← d.change d.current (addAt path k v)
  return (⟨root, d.current⟩, rest)

/-- Reads lines to the end of the text. -/
def linesOf : (left : Nat) → List Char → Draft → Option Entries
  | 0, _, _ => none
  | left + 1, cs, d => do
    match ← dropBlank false cs with
    | [] => some d.root
    | '[' :: '[' :: cs =>
      let (d, rest) ← tablesHeader cs d
      linesOf left rest d
    | '[' :: cs =>
      let (d, rest) ← header cs d
      linesOf left rest d
    | cs =>
      let (d, rest) ← entryLine cs d
      linesOf left rest d

/-- The entries of the document that a text writes, if it is TOML. A byte
order mark before it does not count. -/
def parse (text : String) : Option Entries :=
  let cs :=
    match text.toList with
    | '\ufeff' :: cs => cs
    | cs => cs
  linesOf (cs.length + 1) cs {}

end MemsProbe.Toml
