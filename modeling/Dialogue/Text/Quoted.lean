import Dialogue.Text.Printable

/-! # Quoted text

Texts and paths that a message quotes stand between double quotes. Everything that could not be
told apart or seen on a terminal is written as an escape, so a quoted text fits on one line. -/

namespace Dialogue.Text

/-- The written form of one character: a short escape if it has one, itself if it is printable, and
its code point in hexadecimal otherwise. Only double quotes need an escape, apostrophes do not. -/
def escaped (c : Char) : List Char :=
  if c == '\x00' then ['\\', '0']
  else if c == '\t' then ['\\', 't']
  else if c == '\r' then ['\\', 'r']
  else if c == '\n' then ['\\', 'n']
  else if c == '"' || c == '\\' then ['\\', c]
  else if isPrintable c then [c]
  else ['\\', 'u', '\x7b'] ++ Nat.toDigits 16 c.toNat ++ ['\x7d']

def quoted (s : String) : String := String.ofList ('"' :: s.toList.flatMap escaped ++ ['"'])

end Dialogue.Text
