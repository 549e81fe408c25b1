import Chip8.Text.Blank
import Chip8.Text.DecimalDigit

/-!
# Chip8.Text.Numeral

Decimal integers as people write them: blanks around the number, one sign,
digits of any script, and single underscores between digits.  Leading zeros
are allowed, but not more than `maxDigits` digits in all.  Nor is a number
written that has more digits than may be read.
-/

namespace Chip8

/-- The most digits that one number may have. -/
def maxDigits : Nat := 4300

/-! ## Reading -/

/-- The values of the digits of a number without a sign; one underscore may
stand between two digits. -/
def digitValues? : List Char → Option (List Nat)
  | [] => none
  | [c] => (digitValue? c).map ([·])
  | c :: '_' :: rest => do return (← digitValue? c) :: (← digitValues? rest)
  | c :: d :: rest => do return (← digitValue? c) :: (← digitValues? (d :: rest))

/-- The number that a list of decimal digits writes. -/
def ofDigits (ds : List Nat) : Nat := ds.foldl (fun n d => 10 * n + d) 0

/-- Reads a number without a sign. -/
def readNat? (s : List Char) : Option Nat :=
  match digitValues? s with
  | none => none
  | some ds => if ds.length ≤ maxDigits then some (ofDigits ds) else none

/-- Reads a decimal integer, or fails if the text is not one. -/
def readInt? (s : List Char) : Option Int :=
  match trimBlanks s with
  | '-' :: ds => (readNat? ds).map fun n => -(n : Int)
  | '+' :: ds => (readNat? ds).map fun n => (n : Int)
  | ds => (readNat? ds).map fun n => (n : Int)

/-- Spellings of one number. -/
example : [" 7\t", "+7", "007", "0_7", "\u0667"].map (readInt? ·.toList)
    = List.replicate 5 (some 7) := by decide +kernel

/-- Texts that are no number. -/
example : ["", "_7", "7_", "7__0", "+ 7", "--7", "0x7", "7.0", "\x1c7"].map (readInt? ·.toList)
    = List.replicate 9 none := by decide +kernel

/-! ## Writing -/

/-- The number of digits that a number has; the sign is none. -/
def digitCount (n : Int) : Nat := (Nat.toDigits 10 n.natAbs).length

/-- The numeral of a number, unless it has too many digits. -/
def numeral? (n : Int) : Option String :=
  if digitCount n ≤ maxDigits then some (toString n) else none

theorem numeral?_eq_none_iff {n : Int} : numeral? n = none ↔ maxDigits < digitCount n := by
  simp [numeral?]

end Chip8
