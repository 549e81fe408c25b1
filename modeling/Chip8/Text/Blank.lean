/-!
# Chip8.Text.Blank

The characters that may surround a number without being part of it.  They are
the white space of Unicode, less the four information separators U+001C to
U+001F, which no number may have beside it.
-/

namespace Chip8

/-- The ranges of blank characters, first and last code point, ascending. -/
def blankRanges : List (Nat × Nat) :=
  [(0x0009, 0x000D), (0x0020, 0x0020), (0x0085, 0x0085), (0x00A0, 0x00A0),
   (0x1680, 0x1680), (0x2000, 0x200A), (0x2028, 0x2029), (0x202F, 0x202F),
   (0x205F, 0x205F), (0x3000, 0x3000)]

/-- Whether `c` may surround a number. -/
def isBlank (c : Char) : Bool :=
  blankRanges.any fun r => r.1 ≤ c.toNat && c.toNat ≤ r.2

/-- `s` without the blanks at its front. -/
def dropBlanks (s : List Char) : List Char := s.dropWhile isBlank

/-- `s` without the blanks at either end. -/
def trimBlanks (s : List Char) : List Char :=
  (dropBlanks (dropBlanks s).reverse).reverse

/-- What does not start with a blank keeps its front. -/
theorem dropBlanks_cons {c : Char} {s : List Char} (h : isBlank c = false) :
    dropBlanks (c :: s) = c :: s := by
  simp [dropBlanks, h]

end Chip8
