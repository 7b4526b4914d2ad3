import PackageAtlas.Text

set_option autoImplicit false

/-! # Lines

Lines end at a newline and at nothing else. One carriage return right before the newline belongs to
the line's end, one at the end of a last line without a newline to the line. A newline at the end of
all is not followed by one more, empty line.

The rule is the same for texts (`lines`) and for bytes that have not been decoded (`byteLines`), so
it is stated once, for any two elements that stand for newline and carriage return. -/

namespace PackageAtlas

namespace Lines

variable {α : Type} [DecidableEq α]

/-- `line` without one carriage return `ret` at its end. -/
def withoutReturn (ret : α) (line : List α) : List α :=
  if line.getLast? = some ret then line.dropLast else line

/-- The lines, from the pieces between newlines: all pieces but the last were ended by one. -/
def ofPieces (ret : α) : List (List α) → List (List α)
  | [] => []
  | [last] => if last = [] then [] else [last]
  | piece :: next :: rest => withoutReturn ret piece :: ofPieces ret (next :: rest)

/-- The lines of `content`, where `newline` and `ret` end them. -/
def split (newline ret : α) (content : List α) : List (List α) :=
  ofPieces ret (content.splitOn newline)

end Lines

/-- The lines of a text. -/
def lines (content : Text) : List Text :=
  Lines.split '\n' '\r' content

/-- The lines of a byte string. -/
def byteLines (content : Bytes) : List Bytes :=
  Lines.split 0x0A 0x0D content

end PackageAtlas
