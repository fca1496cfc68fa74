/-
The lines of a stream of bytes, each with the line end that closes it, and
the text that a line holds if it is UTF-8.
-/
namespace MemsProbe.Text

/-- The bytes after each line end begin a new line; a last line need not
have one. -/
def lines : List UInt8 → List (List UInt8)
  | [] => []
  | b :: bytes =>
    if b = 10 then [b] :: lines bytes
    else
      match lines bytes with
      | [] => [[b]]
      | line :: rest => (b :: line) :: rest

/-- The text that bytes stand for in UTF-8. -/
def decode? (bytes : List UInt8) : Option String :=
  String.fromUTF8? ⟨bytes.toArray⟩

end MemsProbe.Text
