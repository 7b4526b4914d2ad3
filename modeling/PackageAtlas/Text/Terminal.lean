import PackageAtlas.Text.Utf8

set_option autoImplicit false

/-! # Texts for a terminal

A terminal shows most characters of a text and takes others as control sequences, each begun by an
escape character. `plain` is what is left of such a text where no terminal reads it: its control
sequences are taken out, and with them all control characters that do not part words or lines.

A blank inside a sequence interrupts it: what follows is kept up to the next control character,
where the sequence goes on. -/

namespace PackageAtlas.Terminal

/-- The character that begins a control sequence. -/
def escape : Char :=
  '\x1b'

/-- A text that a terminal shows in the style with a number. -/
def styled (style : Nat) (t : Text) : Text :=
  escape :: '[' :: Nat.toDigits 10 style ++ 'm' :: t ++ escape :: "[0m".toList

/-- A text that a terminal sets off from what is around it. -/
def emphasized (t : Text) : Text :=
  styled 33 t

/-! ## Where in a sequence a text stands -/

/-- The part of a control sequence that has been reached. -/
inductive Mode where
  /-- In no sequence. -/
  | text
  /-- After the escape character. -/
  | begun
  /-- After characters that lead to the last one of a short sequence. -/
  | short
  /-- Among the parameters of a sequence that ends with a letter. -/
  | parameters
  /-- At the start of a string for a device. -/
  | device
  /-- Among the parameters of a string for a device. -/
  | deviceParameters
  /-- After the parameters of a string for a device. -/
  | deviceName
  /-- In a string that ends with the byte `stringEnd`. -/
  | string
  /-- In a command that ends with a bell. -/
  | command
  deriving DecidableEq

/-- The byte that ends a string, also as a part of a character. -/
def stringEnd : UInt8 :=
  0x9C

/-- Whether the code point of a character lies between two bounds. -/
def between (low high : Nat) (c : Char) : Bool :=
  low ≤ c.toNat && c.toNat ≤ high

/-- Whether a character parts words or lines without being a space. -/
def isLayout (c : Char) : Bool :=
  c = '\t' || c = '\n' || c = '\x0c' || c = '\r'

/-- Whether a character is kept that stands in no sequence. -/
def isKept (c : Char) : Bool :=
  isLayout c || (0x20 ≤ c.toNat && c ≠ '\x7f')

namespace Mode

/-- Whether a character is kept. -/
def keeps (c : Char) : Mode → Bool
  | text => isKept c
  | begun | short | parameters => isLayout c
  | device | deviceParameters | deviceName | string | command => false

/-- The part that a character which begins or cancels no sequence leads to. -/
def next (c : Char) : Mode → Mode
  | text => text
  | begun =>
    if c = '[' then parameters
    else if c = ']' then command
    else if c = 'P' then device
    else if c = 'X' ∨ c = '^' ∨ c = '_' then string
    else if between 0x20 0x2F c then short
    else if between 0x30 0x7E c then text
    else begun
  | short => if between 0x30 0x7E c then text else short
  | parameters => if between 0x40 0x7E c then text else parameters
  | device =>
    if between 0x20 0x2F c then deviceName
    else if between 0x30 0x3F c then deviceParameters
    else if between 0x40 0x7E c then string
    else device
  | deviceParameters =>
    if between 0x20 0x2F c then deviceName
    else if between 0x3C 0x7E c then string
    else deviceParameters
  | deviceName => if between 0x30 0x7E c then string else deviceName
  | string => if stringEnd ∈ Utf8.encode [c] then text else string
  | command => if c = '\x07' then text else command

/-- The part that any character leads to: an escape character begins a sequence everywhere, and two
characters cancel each sequence. -/
def after (c : Char) (mode : Mode) : Mode :=
  if c = escape then begun
  else if c = '\x18' ∨ c = '\x1a' then text
  else mode.next c

end Mode

/-! ## What is left -/

/-- What is left of a text that stands at `mode`. Where the character before was kept (`keeping`), a
sequence that it interrupted rests up to the next control character, and a character beyond ASCII
ends it. -/
def plainFrom (mode : Mode) (keeping : Bool) : Text → Text
  | [] => []
  | c :: rest =>
    if keeping && isKept c || mode.keeps c then
      c :: plainFrom (if c.toNat < 0x80 then mode else .text) true rest
    else plainFrom (mode.after c) false rest

/-- A text without control sequences. -/
def plain (t : Text) : Text :=
  plainFrom .text false t

end PackageAtlas.Terminal
