import PackageAtlas.Glob
import PackageAtlas.Text.Utf8

set_option autoImplicit false

/-! # Matching by offsets

A name can be matched without taking it apart: in its bytes, an offset is moved behind one piece of
the pattern after the other. Bytes of a text can be cut only between characters, and
`Utf8.sliceFrom` refuses every other offset; so does `Glob.acceptsByOffset`, if it comes to cut
there. -/

namespace PackageAtlas

namespace Utf8

/-- Whether a byte goes on with a character that another byte began. -/
def continues (b : UInt8) : Bool :=
  0x80 ≤ b && b ≤ 0xBF

/-- Whether bytes can be cut at an offset: where they end, or where a character begins. -/
def isBoundary (bytes : Bytes) (offset : Nat) : Bool :=
  match bytes[offset]? with
  | none => offset == bytes.length
  | some b => !continues b

/-- The bytes from an offset on, or the offset if they cannot be cut there. -/
def sliceFrom (bytes : Bytes) (offset : Nat) : Except Nat Bytes :=
  if isBoundary bytes offset then .ok (bytes.drop offset) else .error offset

end Utf8

namespace Glob

/-- The offset at which `piece` occurs first. -/
def firstOffset? (piece : Bytes) : Bytes → Option Nat
  | [] => if piece = [] then some 0 else none
  | b :: rest =>
    if piece.isPrefixOf (b :: rest) then some 0 else (firstOffset? piece rest).map (· + 1)

/-- Whether bytes consist, from an offset on, of the pieces with anything in front of each. An empty
piece before the last needs no cut. -/
def acceptsFrom (bytes : Bytes) : List Bytes → Nat → Except Nat Bool
  | [], _ => .ok true
  | [last], offset =>
    if offset + last.length ≤ bytes.length then
      (Utf8.sliceFrom bytes offset).map last.isSuffixOf
    else .ok false
  | piece :: next :: rest, offset =>
    if piece = [] then acceptsFrom bytes (next :: rest) offset
    else
      match Utf8.sliceFrom bytes offset with
      | .error refused => .error refused
      | .ok slice =>
        match firstOffset? piece slice with
        | none => .ok false
        | some index => acceptsFrom bytes (next :: rest) (offset + (index + piece.length))

/-- Whether `name` has the form of `pattern`, unless its bytes cannot be cut at an offset met on the
way. -/
def acceptsByOffset (pattern name : Text) : Except Nat Bool :=
  match pattern.splitOn '*' with
  | [] => .ok false
  | [whole] => .ok (name == whole)
  | first :: rest =>
    if (Utf8.encode first).isPrefixOf (Utf8.encode name) then
      acceptsFrom (Utf8.encode name) (rest.map Utf8.encode) (Utf8.encode first).length
    else .ok false

end Glob

end PackageAtlas
