/-
The tree that a TOML text describes.

A table remembers how it came about, because that decides what may still be
added to it. Of a float only its being finite is kept and of a date or time
nothing at all: no setting is one, and nothing else is asked about them. A
whole number need not have a value, since its digits are only read when the
value is asked for.
-/
namespace MemsProbe.Toml

/-- How a table came about. -/
inductive Origin where
  /-- The document itself, or a table named by a header of its own. -/
  | explicit
  /-- A table on the way to one that a header named. -/
  | implied
  /-- A table on the way to a dotted key. -/
  | dotted
  /-- A table written between braces. -/
  | inline
  deriving DecidableEq, Repr

inductive Value where
  | string (s : String)
  /-- A whole number; none if it is one by its looks alone. -/
  | integer (i : Option Int)
  /-- A number with a fraction or exponent, and whether it is within the
  range of binary64. -/
  | float (finite : Bool)
  | boolean (b : Bool)
  /-- A date, a time, or both. -/
  | moment
  | array (items : List Value)
  /-- Tables gathered under one header in double brackets. -/
  | tables (items : List Value)
  | table (origin : Origin) (entries : List (String × Value))
  deriving Inhabited

/-- The entries of a table, in the order in which their keys first came. -/
abbrev Entries := List (String × Value)

namespace Entries

def get? (key : String) (es : Entries) : Option Value :=
  (es.find? (·.1 == key)).map (·.2)

/-- Gives a key a new value, in its old place if it has one. -/
def set (key : String) (v : Value) : Entries → Entries
  | [] => [(key, v)]
  | e :: es => if e.1 == key then (key, v) :: es else e :: set key v es

end Entries

/-! ## Adding to a tree -/

/-- A way of going down into tables: how it makes one that is missing, and
which of those there it may enter. -/
structure Descent where
  making : Origin
  mayEnter : Origin → Bool

/-- Going down as a header does. -/
def Descent.header : Descent :=
  ⟨.implied, (· != .inline)⟩

/-- Going down as a dotted key does: not into a table that has been written
down as a whole. -/
def Descent.key : Descent :=
  ⟨.dotted, fun o => o == .implied || o == .dotted⟩

/-- Changes the table at the end of a path. Under double brackets the path
goes on into the last table. -/
def descend (d : Descent) (change : Origin → Entries → Option Value) :
    List String → Origin → Entries → Option Value
  | [], origin, es => change origin es
  | key :: path, origin, es =>
    match es.get? key with
    | none => do
      let v ← descend d change path d.making []
      return .table origin (es.set key v)
    | some (.table inner entries) =>
      if d.mayEnter inner then do
        let v ← descend d change path inner entries
        return .table origin (es.set key v)
      else none
    | some (.tables items) =>
      match items.getLast? with
      | some (.table inner entries) => do
        let v ← descend d change path inner entries
        return .table origin (es.set key (.tables (items.dropLast ++ [v])))
      | _ => none
    | some _ => none

/-- Adds an entry to a table; `viaDots` says whether dots led there. A table
made for dotted keys takes no entry in another way, and no other table takes
one that way. -/
def addEntry (viaDots : Bool) (key : String) (v : Value) (origin : Origin) (es : Entries) :
    Option Value :=
  if (origin == .dotted) != viaDots then none
  else if (es.get? key).isSome then none
  else some (.table origin (es.set key v))

/-- Adds the entry of a dotted key to a table. -/
def addAt (path : List String) (key : String) (v : Value) (origin : Origin) (es : Entries) :
    Option Value :=
  descend .key (addEntry (!path.isEmpty) key v) path origin es

/-- Opens the table of a header. One that is there already must have come
about as a step on the way to another. -/
def openTable (key : String) (origin : Origin) (es : Entries) : Option Value :=
  match es.get? key with
  | none => some (.table origin (es.set key (.table .explicit [])))
  | some (.table .implied entries) => some (.table origin (es.set key (.table .explicit entries)))
  | some _ => none

/-- Adds a table under a header in double brackets. -/
def addTable (key : String) (origin : Origin) (es : Entries) : Option Value :=
  match es.get? key with
  | none => some (.table origin (es.set key (.tables [.table .explicit []])))
  | some (.tables items) =>
    some (.table origin (es.set key (.tables (items ++ [.table .explicit []]))))
  | some _ => none

end MemsProbe.Toml
