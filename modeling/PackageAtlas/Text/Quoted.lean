import PackageAtlas.Text
import PackageAtlas.Text.Visibility

set_option autoImplicit false

/-! # Quoted texts in messages

A message that names a text shows it between quotes. A few characters have a short form after a
backslash; what would not be seen, or would change how its neighbour looks (`Visibility.isPlain`),
is written by its number. -/

namespace PackageAtlas.Quoted

/-- A character between quotes. -/
def escapedChar (c : Char) : Text :=
  if c = '\x00' then ['\\', '0']
  else if c = '\t' then ['\\', 't']
  else if c = '\r' then ['\\', 'r']
  else if c = '\n' then ['\\', 'n']
  else if c = '"' then ['\\', '"']
  else if c = '\\' then ['\\', '\\']
  else if Visibility.isPlain c then [c]
  else "\\u\x7b".toList ++ Nat.toDigits 16 c.toNat ++ ['\x7d']

/-- A text between quotes. -/
def quoted (t : Text) : Text :=
  '"' :: (t.flatMap escapedChar ++ ['"'])

end PackageAtlas.Quoted
