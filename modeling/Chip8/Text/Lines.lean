/-!
# Chip8.Text.Lines

The lines of a text.  Each of the characters of Unicode that end a line, or part
paragraphs or records, is a line break, and a carriage return with the line feed
behind it is one.  A break at the end of a text starts no further line.
-/

namespace Chip8

/-- The ranges of line breaks, first and last code point, ascending. -/
def lineBreakRanges : List (Nat × Nat) :=
  [(0x000A, 0x000D), (0x001C, 0x001E), (0x0085, 0x0085), (0x2028, 0x2029)]

/-- Whether a line ends at `c`. -/
def isLineBreak (c : Char) : Bool :=
  lineBreakRanges.any fun r => r.1 ≤ c.toNat && c.toNat ≤ r.2

/-- `c` at the front of the first of some lines. -/
def consToLines (c : Char) : List (List Char) → List (List Char)
  | [] => [[c]]
  | line :: rest => (c :: line) :: rest

/-- The lines of a text, without the breaks between them. -/
def lines : List Char → List (List Char)
  | [] => []
  | '\r' :: '\n' :: rest => [] :: lines rest
  | c :: rest => if isLineBreak c then [] :: lines rest else consToLines c (lines rest)

/-- The last line of a text, which is empty if there is none. -/
def lastLine (s : String) : String := String.ofList ((lines s.toList).getLastD [])

/-- A break at the end starts no further line, but two breaks part an empty one
from it. -/
example : lines "ab\n".toList = [['a', 'b']] ∧ lines "a\n\n".toList = [['a'], []] := by
  decide +kernel

/-- A carriage return and a line feed are one break. -/
example : lines "a\r\nb\x0bc".toList = [['a'], ['b'], ['c']] := by decide +kernel

end Chip8
