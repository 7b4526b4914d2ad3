import PackageAtlas.Json

set_option autoImplicit false

/-! # JSON texts

Values are written in two layouts. The compact one has no blanks at all. The indented one gives
every item and member a line of its own, two blanks deeper than the brackets around it, and puts a
blank after the colon; empty arrays and objects stay on one line. -/

namespace PackageAtlas.Json

/-! ## Strings and numbers -/

/-- The small hexadecimal digit for a number below 16. -/
def hexDigit (n : Nat) : Char :=
  Nat.digitChar n

/-- A character between quotes: quotes and backslashes get a backslash, the control characters of
ASCII a short escape or their number, and all else stands for itself. -/
def escapedChar (c : Char) : Text :=
  if c = '"' then ['\\', '"']
  else if c = '\\' then ['\\', '\\']
  else if c = '\x08' then ['\\', 'b']
  else if c = '\x0c' then ['\\', 'f']
  else if c = '\n' then ['\\', 'n']
  else if c = '\r' then ['\\', 'r']
  else if c = '\t' then ['\\', 't']
  else if c.toNat < 0x20 then
    ['\\', 'u', '0', '0', hexDigit (c.toNat / 16), hexDigit (c.toNat % 16)]
  else [c]

/-- A string with its quotes. -/
def quoted (t : Text) : Text :=
  '"' :: (t.flatMap escapedChar ++ ['"'])

/-- The digits of an integer, with a minus if it is negative. -/
def integerText (n : Int) : Text :=
  match n with
  | .ofNat m => Nat.toDigits 10 m
  | .negSucc m => '-' :: Nat.toDigits 10 (m + 1)

/-- A decimal as its digits and its exponent. -/
def decimalText (negative : Bool) (digits : Nat) (exponent : Int) : Text :=
  (if negative then ['-'] else []) ++ Nat.toDigits 10 digits ++ 'e' :: integerText exponent

/-- The word for a truth value. -/
def boolText (value : Bool) : Text :=
  if value then "true".toList else "false".toList

/-! ## The compact layout -/

mutual

/-- A value without blanks. -/
def compact : Json → Text
  | null => "null".toList
  | bool value => boolText value
  | integer value => integerText value
  | decimal negative digits exponent => decimalText negative digits exponent
  | string value => quoted value
  | array items => '[' :: (compactItems items ++ [']'])
  | object members => '\x7b' :: (compactMembers members ++ ['\x7d'])

/-- Items with commas between them. -/
def compactItems : List Json → Text
  | [] => []
  | [item] => compact item
  | item :: next :: rest => compact item ++ ',' :: compactItems (next :: rest)

/-- Members with commas between them. -/
def compactMembers : List (Text × Json) → Text
  | [] => []
  | [(key, value)] => quoted key ++ ':' :: compact value
  | (key, value) :: next :: rest =>
    quoted key ++ ':' :: (compact value ++ ',' :: compactMembers (next :: rest))

end

/-! ## The indented layout -/

/-- The end of a line and the blanks in front of the next one. -/
def freshLine (depth : Nat) : Text :=
  '\n' :: List.replicate (2 * depth) ' '

mutual

/-- A value at a depth of nesting. -/
def indented (depth : Nat) : Json → Text
  | null => "null".toList
  | bool value => boolText value
  | integer value => integerText value
  | decimal negative digits exponent => decimalText negative digits exponent
  | string value => quoted value
  | array [] => ['[', ']']
  | array (item :: rest) =>
    '[' :: (freshLine (depth + 1) ++ indented (depth + 1) item ++ indentedItems (depth + 1) rest
      ++ freshLine depth ++ [']'])
  | object [] => ['\x7b', '\x7d']
  | object ((key, value) :: rest) =>
    '\x7b' :: (freshLine (depth + 1) ++ quoted key ++ ':' :: ' ' :: indented (depth + 1) value
      ++ indentedMembers (depth + 1) rest ++ freshLine depth ++ ['\x7d'])

/-- The items after the first, each after a comma on a line of its own. -/
def indentedItems (depth : Nat) : List Json → Text
  | [] => []
  | item :: rest => ',' :: (freshLine depth ++ indented depth item ++ indentedItems depth rest)

/-- The members after the first, each after a comma on a line of its own. -/
def indentedMembers (depth : Nat) : List (Text × Json) → Text
  | [] => []
  | (key, value) :: rest =>
    ',' :: (freshLine depth ++ quoted key ++ ':' :: ' ' :: indented depth value
      ++ indentedMembers depth rest)

end

end PackageAtlas.Json
