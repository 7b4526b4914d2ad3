import PackageAtlas.Json

set_option autoImplicit false

/-! # Reading JSON texts

`Json.parse?` reads a whole text as one value, with blanks of JSON around it. Its steps each take a
text and give a value with what is left of the text. The steps for nested values count how many
brackets and items they may still enter; a text as long as it is bounds them all. -/

namespace PackageAtlas.Json

/-! ## Blanks, digits and characters -/

/-- Whether a character may stand between the parts of a JSON text. -/
def isSpace (c : Char) : Bool :=
  c = ' ' || c = '\n' || c = '\r' || c = '\t'

/-- A text from its first character that is no blank of JSON. -/
def skipSpace (t : Text) : Text :=
  t.dropWhile isSpace

/-- The value of a hexadecimal digit. -/
def hexValue? (c : Char) : Option Nat :=
  if '0' ≤ c ∧ c ≤ '9' then some (c.toNat - '0'.toNat)
  else if 'a' ≤ c ∧ c ≤ 'f' then some (c.toNat - 'a'.toNat + 10)
  else if 'A' ≤ c ∧ c ≤ 'F' then some (c.toNat - 'A'.toNat + 10)
  else none

/-- The number of four hexadecimal digits. -/
def fourHex? (a b c d : Char) : Option Nat := do
  return (((← hexValue? a) * 16 + (← hexValue? b)) * 16 + (← hexValue? c)) * 16 + (← hexValue? d)

/-- The character of a unit that is no half of a pair. -/
def charOfUnit? (unit : Nat) : Option Char :=
  if 0xD800 ≤ unit ∧ unit ≤ 0xDFFF then none else some (Char.ofNat unit)

/-- The character of the two halves of a pair. -/
def charOfPair? (high low : Nat) : Option Char :=
  if 0xD800 ≤ high ∧ high ≤ 0xDBFF ∧ 0xDC00 ≤ low ∧ low ≤ 0xDFFF then
    some (Char.ofNat (0x10000 + (high - 0xD800) * 0x400 + (low - 0xDC00)))
  else none

/-- The character that a letter after a backslash stands for. -/
def shortEscape? (c : Char) : Option Char :=
  if c = '"' ∨ c = '\\' ∨ c = '/' then some c
  else if c = 'b' then some '\x08'
  else if c = 'f' then some '\x0c'
  else if c = 'n' then some '\n'
  else if c = 'r' then some '\r'
  else if c = 't' then some '\t'
  else none

/-- What is left after a character, with the character in front of the string read from there. -/
def withChar (c : Char) : Option (Text × Text) → Option (Text × Text)
  | none => none
  | some (read, left) => some (c :: read, left)

/-- The string whose opening quote has been read, and what is left after its closing quote. -/
def stringBody? : Text → Option (Text × Text)
  | [] => none
  | '"' :: rest => some ([], rest)
  | '\\' :: 'u' :: a :: b :: c :: d :: rest =>
    match fourHex? a b c d with
    | none => none
    | some unit =>
      match charOfUnit? unit with
      | some read => withChar read (stringBody? rest)
      | none =>
        match rest with
        | '\\' :: 'u' :: a' :: b' :: c' :: d' :: after =>
          match (fourHex? a' b' c' d').bind (charOfPair? unit) with
          | some read => withChar read (stringBody? after)
          | none => none
        | _ => none
  | '\\' :: c :: rest =>
    match shortEscape? c with
    | some read => withChar read (stringBody? rest)
    | none => none
  | c :: rest => if c.toNat < 0x20 ∨ c = '\\' then none else withChar c (stringBody? rest)

/-! ## Numbers -/

/-- The number that digits write, after a number read before them. -/
def digitsValue (before : Nat) (digits : Text) : Nat :=
  digits.foldl (fun n c => n * 10 + (c.toNat - '0'.toNat)) before

/-- The digits at the start of a text, at least one, and what is left. -/
def digits? (t : Text) : Option (Text × Text) :=
  if t.takeWhile Char.isDigit = [] then none
  else some (t.takeWhile Char.isDigit, t.dropWhile Char.isDigit)

/-- The digits of the integer part, which has no zero in front of other digits. -/
def integerPart? (t : Text) : Option (Text × Text) :=
  match digits? t with
  | some ('0' :: _ :: _, _) => none
  | result => result

/-- The digits after a point, if there is one. -/
def fractionPart? : Text → Option (Text × Text)
  | '.' :: rest => digits? rest
  | t => some ([], t)

/-- The exponent, if there is one. -/
def exponentPart? : Text → Option (Option Int × Text)
  | [] => some (none, [])
  | c :: rest =>
    if c = 'e' ∨ c = 'E' then
      match rest with
      | '-' :: t => (digits? t).map fun (read, left) => (some (-(digitsValue 0 read : Nat)), left)
      | '+' :: t => (digits? t).map fun (read, left) => (some (digitsValue 0 read : Nat), left)
      | t => (digits? t).map fun (read, left) => (some (digitsValue 0 read : Nat), left)
    else some (none, c :: rest)

/-- The value of a number by its parts. -/
def numberOfParts (negative : Bool) (whole fraction : Text) (exponent : Option Int) : Json :=
  let value := digitsValue (digitsValue 0 whole) fraction
  if fraction = [] ∧ exponent = none ∧ ¬ (negative ∧ value = 0) then
    integer (if negative then -(value : Int) else value)
  else decimal negative value (exponent.getD 0 - fraction.length)

/-- The number at the start of a text without a minus. -/
def unsigned? (negative : Bool) (t : Text) : Option (Json × Text) := do
  let (whole, t) ← integerPart? t
  let (fraction, t) ← fractionPart? t
  let (exponent, t) ← exponentPart? t
  return (numberOfParts negative whole fraction exponent, t)

/-- The number at the start of a text. -/
def number? : Text → Option (Json × Text)
  | '-' :: rest => unsigned? true rest
  | t => unsigned? false t

/-! ## Values -/

/-- A value for a word at the start of a text. -/
def word? (word : Text) (value : Json) (t : Text) : Option (Json × Text) :=
  (word.isPrefixOf? t).map fun left => (value, left)

mutual

/-- The value at the start of a text, after blanks. -/
def value? : Nat → Text → Option (Json × Text)
  | 0, _ => none
  | fuel + 1, t =>
    match skipSpace t with
    | [] => none
    | '"' :: rest => (stringBody? rest).map fun (read, left) => (string read, left)
    | '[' :: rest =>
      match skipSpace rest with
      | ']' :: left => some (array [], left)
      | _ => (items? fuel rest).map fun (read, left) => (array read, left)
    | '\x7b' :: rest =>
      match skipSpace rest with
      | '\x7d' :: left => some (object [], left)
      | _ => (members? fuel rest).map fun (read, left) => (object read, left)
    | 'n' :: rest => word? "ull".toList null rest
    | 't' :: rest => word? "rue".toList (bool true) rest
    | 'f' :: rest => word? "alse".toList (bool false) rest
    | c :: rest => number? (c :: rest)

/-- The items up to the closing bracket. -/
def items? : Nat → Text → Option (List Json × Text)
  | 0, _ => none
  | fuel + 1, t =>
    match value? fuel t with
    | none => none
    | some (item, after) =>
      match skipSpace after with
      | ',' :: rest => (items? fuel rest).map fun (read, left) => (item :: read, left)
      | ']' :: left => some ([item], left)
      | _ => none

/-- The members up to the closing brace. -/
def members? : Nat → Text → Option (List (Text × Json) × Text)
  | 0, _ => none
  | fuel + 1, t =>
    match skipSpace t with
    | '"' :: rest =>
      match stringBody? rest with
      | none => none
      | some (key, after) =>
        match skipSpace after with
        | ':' :: rest =>
          match value? fuel rest with
          | none => none
          | some (value, after) =>
            match skipSpace after with
            | ',' :: rest =>
              (members? fuel rest).map fun (read, left) => ((key, value) :: read, left)
            | '\x7d' :: left => some ([(key, value)], left)
            | _ => none
        | _ => none
    | _ => none

end

/-- The value that a whole text writes. -/
def parse? (t : Text) : Option Json :=
  match value? (t.length + 1) t with
  | some (value, left) => if skipSpace left = [] then some value else none
  | none => none

end PackageAtlas.Json
