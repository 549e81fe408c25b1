/-!
# Chip8.Text.Hex

Hexadecimal numerals as messages and assembly text show them: lower-case
digits, no leading mark, filled up with zeros to a least width.  A negative
number has its sign in front, and the sign counts towards the width.

Filling never cuts a numeral: `length_zeroFill` gives its width.
-/

namespace Chip8

/-- The hexadecimal digits of `n`, most significant first; zero has one
digit. -/
def natHexDigits (n : Nat) : List Char := Nat.toDigits 16 n

/-- Fills `digits` up with leading zeros to `width` characters. -/
def zeroFill (width : Nat) (digits : List Char) : List Char :=
  List.replicate (width - digits.length) '0' ++ digits

/-- The numeral of `n` as characters, at least `width` of them. -/
def hexDigits (width : Nat) : Int → List Char
  | .ofNat n => zeroFill width (natHexDigits n)
  | .negSucc n => '-' :: zeroFill (width - 1) (natHexDigits (n + 1))

/-- The numeral of `n`, at least `width` characters wide. -/
def hex (width : Nat) (n : Int) : String := String.ofList (hexDigits width n)

/-! ## Width -/

theorem length_zeroFill (width : Nat) (digits : List Char) :
    (zeroFill width digits).length = max width digits.length := by
  simp [zeroFill]
  omega

end Chip8
