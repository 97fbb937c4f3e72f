import ShaderLibrary.Text.Basic
import ShaderLibrary.Text.Printable

/-!
Quoted texts, as they stand in messages: between single quotes, or between double quotes if the
text holds a single quote and no double one, with everything that would be misread escaped.
-/

namespace ShaderLibrary.Text

/-- The last `width` hexadecimal digits of `n`, in lower case. -/
def hexDigits : Nat → Nat → Text
  | 0, _ => []
  | width + 1, n => hexDigits width (n / 16) ++ [Nat.digitChar (n % 16)]

/-- The mark that encloses the quoted text. -/
def quoteMark (t : Text) : Char :=
  if apostrophe ∈ t ∧ doubleQuote ∉ t then doubleQuote else apostrophe

/-- A character inside a text that is enclosed by `mark`. The mark and the backslash are escaped,
and so is every character that is not printable, with as few digits as it needs. -/
def quotedChar (mark c : Char) : Text :=
  if c = mark ∨ c = '\\' then ['\\', c]
  else if c = '\n' then ['\\', 'n']
  else if c = '\r' then ['\\', 'r']
  else if c = '\t' then ['\\', 't']
  else if isPrintable c then [c]
  else if c.toNat < 0x100 then '\\' :: 'x' :: hexDigits 2 c.toNat
  else if c.toNat < 0x10000 then '\\' :: 'u' :: hexDigits 4 c.toNat
  else '\\' :: 'U' :: hexDigits 8 c.toNat

def quoted (t : Text) : Text :=
  let mark := quoteMark t
  mark :: t.flatMap (quotedChar mark) ++ [mark]

end ShaderLibrary.Text
