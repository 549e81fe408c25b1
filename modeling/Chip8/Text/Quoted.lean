import Chip8.Text.Hex
import Chip8.Text.Printable

/-!
# Chip8.Text.Quoted

Text between quotation marks, as messages cite a name that a user gave.
Apostrophes enclose it, or double quotes when the text holds apostrophes and
no double quote.  What cannot be shown, a backslash and the enclosing mark are
written as escapes.
-/

namespace Chip8

/-- The mark that encloses `s`. -/
def quoteMark (s : List Char) : Char :=
  if s.contains '\x27' && !s.contains '"' then '"' else '\x27'

/-- The escape of the character with code point `n`, in the shortest of the
three forms that has room for it. -/
def codeEscape (n : Nat) : List Char :=
  if n < 0x100 then '\\' :: 'x' :: hexDigits 2 n
  else if n < 0x10000 then '\\' :: 'u' :: hexDigits 4 n
  else '\\' :: 'U' :: hexDigits 8 n

/-- One character of a text that `mark` encloses. -/
def quoteChar (mark c : Char) : List Char :=
  if c = mark || c = '\\' then ['\\', c]
  else if c = '\t' then ['\\', 't']
  else if c = '\n' then ['\\', 'n']
  else if c = '\r' then ['\\', 'r']
  else if isPrintable c then [c]
  else codeEscape c.toNat

/-- `s` between quotation marks. -/
def quoted (s : String) : String :=
  let mark := quoteMark s.toList
  String.ofList (mark :: s.toList.flatMap (quoteChar mark) ++ [mark])

/-- Plain text stands between apostrophes. -/
example : quoted "CLS" = "'CLS'" := by decide +kernel

/-- An apostrophe inside asks for double quotes, and both kinds for escapes. -/
example : quoted "it's" = "\"it's\"" := by decide +kernel

/-- What cannot be shown is escaped. -/
example : quoted "a\n\u00a0\u2028" = "'a\\n\\xa0\\u2028'" := by decide +kernel

end Chip8
