/-
A text between double quotes, written so that it can be read off a
terminal: what would end it, move the cursor or not show at all is escaped.
-/
import MemsProbe.Text.Glyph
import MemsProbe.Text.Hex

namespace MemsProbe.Text

/-- An escape that gives the code point, in small letters. -/
def codeEscape (c : Char) : List Char :=
  ['\\', 'u', '\x7b'] ++ (Hex.numeralChars c.toNat).map Char.toLower ++ ['\x7d']

/-- A character as it stands between the quotes. -/
def quotedChar (c : Char) : List Char :=
  match c with
  | '\x00' => ['\\', '0']
  | '\t' => ['\\', 't']
  | '\n' => ['\\', 'n']
  | '\r' => ['\\', 'r']
  | '"' => ['\\', '"']
  | '\\' => ['\\', '\\']
  | _ => if hasGlyph c then [c] else codeEscape c

def quoted (s : String) : String :=
  String.ofList ('"' :: s.toList.flatMap quotedChar ++ ['"'])

end MemsProbe.Text
