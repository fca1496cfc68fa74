/-
Placeholders such as the name of a variable between braces after a dollar
sign.

They are replaced in one pass from left to right. The name is all that
stands before the next closing brace and is never empty; a value is put in
as it is and not looked through again. A placeholder without a value stays.
-/
namespace MemsProbe.Placeholder

/-- The entries of an environment: names with their values. -/
abbrev Values := List (String × String)

/-- The value that an entry gives to a name. An entry is one text, its name
and its value joined by an equals sign; all that stands before an equals
sign is a name of what stands after it, also when the sign is in the value. -/
def valueIn (name : String) (entry : String × String) : Option String :=
  let text := entry.1 ++ "=" ++ entry.2
  ((name ++ "=").toList.isPrefixOf? text.toList).map String.ofList

/-- The value that the first entry with the name gives to it. -/
def Values.get? (name : String) (vs : Values) : Option String :=
  vs.findSome? (valueIn name)

/-- A placeholder as it is written. -/
def written (name : List Char) : List Char :=
  '$' :: '\x7b' :: name ++ ['\x7d']

/-- What a placeholder becomes. -/
def replacement (values : Values) (name : List Char) : List Char :=
  match values.get? (String.ofList name) with
  | some v => v.toList
  | none => written name

/-- The name of the placeholder at the front of a text, if there is one. -/
def name? : List Char → Option (List Char)
  | '$' :: '\x7b' :: rest =>
    let name := rest.takeWhile (· != '\x7d')
    if name.isEmpty || name.length == rest.length then none else some name
  | _ => none

/-- A text with its placeholders replaced, after as many characters as still
belong to the placeholder before it. -/
def fillAfter (values : Values) : (skip : Nat) → List Char → List Char
  | _, [] => []
  | skip + 1, _ :: cs => fillAfter values skip cs
  | 0, c :: cs =>
    match name? (c :: cs) with
    | some name => replacement values name ++ fillAfter values (name.length + 2) cs
    | none => c :: fillAfter values 0 cs

/-- A text with its placeholders replaced. -/
def fill (values : Values) (text : String) : String :=
  String.ofList (fillAfter values 0 text.toList)

/-- The names of the placeholders in a text, after as many characters as
still belong to the placeholder before it. -/
def namesAfter : (skip : Nat) → List Char → List String
  | _, [] => []
  | skip + 1, _ :: cs => namesAfter skip cs
  | 0, c :: cs =>
    match name? (c :: cs) with
    | some name => String.ofList name :: namesAfter (name.length + 2) cs
    | none => namesAfter 0 cs

/-- The names for which a text has placeholders. -/
def names (text : String) : List String :=
  namesAfter 0 text.toList

end MemsProbe.Placeholder
