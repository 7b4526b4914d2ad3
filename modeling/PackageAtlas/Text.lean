set_option autoImplicit false

/-! # Texts and byte strings

A text is a list of characters and a byte string a list of bytes, so that everything said about
them is said about lists. This module holds the operations on single texts that the rest of the
library needs and the list library lacks: blanks, trimming and cutting at a last separator.

* `isBlank` holds of the characters with the Unicode property White_Space.
* `trim` drops the blanks at both ends of a text.
* `beforeLast?` is what stands before the last occurrence of an element. -/

namespace PackageAtlas

/-- A sequence of Unicode characters. -/
abbrev Text := List Char

/-- A sequence of bytes: the content of a file, or a name that need not be readable text. -/
abbrev Bytes := List UInt8

/-! ## Blanks -/

/-- The code points with the property White_Space, as closed ranges in ascending order. -/
def blankRanges : List (Nat × Nat) :=
  [(0x9, 0xD), (0x20, 0x20), (0x85, 0x85), (0xA0, 0xA0), (0x1680, 0x1680), (0x2000, 0x200A),
    (0x2028, 0x2029), (0x202F, 0x202F), (0x205F, 0x205F), (0x3000, 0x3000)]

/-- Whether `c` has the property White_Space. -/
def isBlank (c : Char) : Bool :=
  blankRanges.any fun range => range.1 ≤ c.toNat && c.toNat ≤ range.2

/-- Whether `t` begins with a blank. -/
def startsBlank (t : Text) : Bool :=
  t.head?.any isBlank

/-- `t` from its first character that is no blank. -/
def trimStart (t : Text) : Text :=
  t.dropWhile isBlank

/-- `t` up to its last character that is no blank. -/
def trimEnd (t : Text) : Text :=
  (t.reverse.dropWhile isBlank).reverse

/-- `t` without the blanks at its ends. -/
def trim (t : Text) : Text :=
  trimEnd (trimStart t)

/-- `t` trimmed, unless only blanks are in it. -/
def trimmed? (t : Text) : Option Text :=
  if trim t = [] then none else some (trim t)

/-! ## Cutting -/

variable {α : Type} [DecidableEq α]

/-- What stands before the last `x` of a list, if there is one. -/
def beforeLast? (x : α) : List α → Option (List α)
  | [] => none
  | y :: rest =>
    match beforeLast? x rest with
    | some before => some (y :: before)
    | none => if y = x then some [] else none

end PackageAtlas
