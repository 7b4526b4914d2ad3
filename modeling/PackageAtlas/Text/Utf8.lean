import PackageAtlas.Text

set_option autoImplicit false

/-! # UTF-8

`encode` writes a text as bytes. `decodeLossy` reads any bytes: it runs a machine over them that
remembers how far it is inside a character, and every longest run of bytes that begins a character
but cannot be completed becomes one replacement character, as does every byte that begins none.
`decode?` reads well-formed bytes only. -/

namespace PackageAtlas.Utf8

/-- The bytes of a text. -/
def encode (t : Text) : Bytes :=
  t.flatMap String.utf8EncodeChar

/-- The character that stands for bytes that are no character. -/
def replacement : Char :=
  Char.ofNat 0xFFFD

/-- Where the machine stands between two bytes. -/
inductive State where
  /-- Between characters. -/
  | ready
  /-- Inside a character: the bits read so far, how many bytes come after the next one, and the
  least and greatest byte that may be next. -/
  | inside (seen later : Nat) (low high : UInt8)
  deriving DecidableEq

/-- What byte `b` gives between characters: the text it completes, and the state after it. -/
def first (b : UInt8) : Text × State :=
  if b ≤ 0x7F then ([Char.ofNat b.toNat], .ready)
  else if b < 0xC2 then ([replacement], .ready)
  else if b ≤ 0xDF then ([], .inside (b.toNat - 0xC0) 0 0x80 0xBF)
  else if b = 0xE0 then ([], .inside 0x0 1 0xA0 0xBF)
  else if b = 0xED then ([], .inside 0xD 1 0x80 0x9F)
  else if b ≤ 0xEF then ([], .inside (b.toNat - 0xE0) 1 0x80 0xBF)
  else if b = 0xF0 then ([], .inside 0 2 0x90 0xBF)
  else if b ≤ 0xF3 then ([], .inside (b.toNat - 0xF0) 2 0x80 0xBF)
  else if b = 0xF4 then ([], .inside 4 2 0x80 0x8F)
  else ([replacement], .ready)

/-- One byte: the text it completes, and the state after it. A byte that cannot continue the
character begun ends it as a replacement character and is then read between characters. -/
def step : State → UInt8 → Text × State
  | .ready, b => first b
  | .inside seen later low high, b =>
    if low ≤ b ∧ b ≤ high then
      match later with
      | 0 => ([Char.ofNat (seen * 64 + (b.toNat - 0x80))], .ready)
      | more + 1 => ([], .inside (seen * 64 + (b.toNat - 0x80)) more 0x80 0xBF)
    else (replacement :: (first b).1, (first b).2)

/-- The text owed at the end of the bytes: a character cut short is one replacement character. -/
def finish : State → Text
  | .ready => []
  | .inside .. => [replacement]

/-- The text of the bytes that follow, from a state of the machine. -/
def decodeFrom : State → Bytes → Text
  | state, [] => finish state
  | state, b :: rest => (step state b).1 ++ decodeFrom (step state b).2 rest

/-- The text of any bytes, with replacement characters for what is not well formed. -/
def decodeLossy (bytes : Bytes) : Text :=
  decodeFrom .ready bytes

/-- The text of well-formed bytes: those that its encoding gives back. -/
def decode? (bytes : Bytes) : Option Text :=
  if encode (decodeLossy bytes) = bytes then some (decodeLossy bytes) else none

end PackageAtlas.Utf8
