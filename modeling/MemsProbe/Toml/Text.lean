/-
Quoted text in TOML.

Double quotes allow escapes and single quotes do not. Either kind may be
tripled, and the text then runs over lines: a line end right after the
opening quotes is not part of it, and up to two quotes may stand just
before the closing ones. A backslash at the end of a line takes away all
blanks and line ends that follow.
-/
import MemsProbe.Toml.Blank
import MemsProbe.Text.Numeral

namespace MemsProbe.Toml

/-- The character of so many hexadecimal digits. -/
def codePoint (digits : Nat) : Reader Char := fun cs =>
  let written := cs.take digits
  if written.length == digits && written.all (Numeral.isDigit 16) then
    let n := Numeral.value 16 written
    if n.isValidChar then some (Char.ofNat n, cs.drop digits) else none
  else none

/-- The character of an escape, after the backslash. -/
def escape : Reader Char
  | 'b' :: cs => some ('\x08', cs)
  | 't' :: cs => some ('\t', cs)
  | 'n' :: cs => some ('\n', cs)
  | 'f' :: cs => some ('\x0c', cs)
  | 'r' :: cs => some ('\r', cs)
  | 'e' :: cs => some ('\x1b', cs)
  | '"' :: cs => some ('"', cs)
  | '\\' :: cs => some ('\\', cs)
  | 'x' :: cs => codePoint 2 cs
  | 'u' :: cs => codePoint 4 cs
  | 'U' :: cs => codePoint 8 cs
  | _ => none

/-! ## On one line

The last argument of each reader is a bound on the characters left, and
`said` holds what was read so far, the last character first. -/

/-- The rest of a text in double quotes. -/
def basicFrom (said : List Char) : (left : Nat) → Reader (List Char)
  | 0, _ => none
  | left + 1, cs =>
    match cs with
    | [] => none
    | '"' :: rest => some (said.reverse, rest)
    | '\\' :: rest => do
      let (c, rest) ← escape rest
      basicFrom (c :: said) left rest
    | c :: rest => if isPlain c then basicFrom (c :: said) left rest else none

/-- The rest of a text in single quotes. -/
def literalFrom (said : List Char) : Reader (List Char)
  | [] => none
  | c :: rest =>
    if c == '\'' then some (said.reverse, rest)
    else if isPlain c then literalFrom (c :: said) rest
    else none

/-- A text on one line, if one comes next. -/
def lineText : Reader String
  | '"' :: cs => (basicFrom [] (cs.length + 1) cs).map fun (s, rest) => (String.ofList s, rest)
  | '\'' :: cs => (literalFrom [] cs).map fun (s, rest) => (String.ofList s, rest)
  | _ => none

/-! ## Over several lines -/

/-- Reads quotes in a text over several lines: how many belong to the text,
and the rest if they close it. Of a longer row the last three of at most
five close it. -/
def quotes (quote : Char) (cs : List Char) : Nat × Option (List Char) :=
  let row := min 5 (cs.takeWhile (· == quote)).length
  if row < 3 then (row, none) else (row - 3, some (cs.drop row))

/-- The text after blanks and line ends. -/
def dropLayout : List Char → List Char
  | '\r' :: '\n' :: cs => dropLayout cs
  | c :: cs => if isSpace c || c == '\n' then dropLayout cs else c :: cs
  | [] => []

/-- The rest of a text over several lines, with escapes or without. -/
def linesFrom (quote : Char) (escapes : Bool) (said : List Char) :
    (left : Nat) → Reader (List Char)
  | 0, _ => none
  | left + 1, cs =>
    match cs with
    | [] => none
    | c :: rest =>
      if c == quote then
        match quotes quote cs with
        | (own, some after) => some ((List.replicate own quote ++ said).reverse, after)
        | (own, none) =>
          linesFrom quote escapes (List.replicate own quote ++ said) left (cs.drop own)
      else if escapes && c == '\\' then
        if (newline? (dropSpaces rest)).isSome then
          linesFrom quote escapes said left (dropLayout rest)
        else do
          let (c, rest) ← escape rest
          linesFrom quote escapes (c :: said) left rest
      else
        match newline? cs with
        | some rest => linesFrom quote escapes ('\n' :: said) left rest
        | none => if isPlain c then linesFrom quote escapes (c :: said) left rest else none

/-- A text over several lines, after its opening quotes. -/
def blockText (quote : Char) (escapes : Bool) : Reader String := fun cs =>
  let cs := (newline? cs).getD cs
  (linesFrom quote escapes [] (cs.length + 1) cs).map fun (s, rest) => (String.ofList s, rest)

/-- A quoted text, if one comes next. -/
def quotedText : Reader String
  | '"' :: '"' :: '"' :: cs => blockText '"' true cs
  | '\'' :: '\'' :: '\'' :: cs => blockText '\'' false cs
  | cs => lineText cs

end MemsProbe.Toml
