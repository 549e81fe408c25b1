import Chip8.Text.Hex

/-!
# Chip8.Time.Binary64

Arithmetic on exact rationals in which every result is rounded to the nearest
double, a tie going to the even neighbour.  Doubles have 53 significant bits and
no bits below `2 ^ (-1074)`; they are kept as the rationals that they are, so
their order is the order of rationals.  A value too large for a double is left
standing; among doubles it compares like infinity, and `toBits` shows it so.
-/

namespace Chip8.Binary64

/-- The power of two with a given exponent. -/
def powTwo (k : Nat) : Nat := Nat.pow 2 k

/-- The quotient `n / d` rounded to the nearest number, a tie to the even one. -/
def roundDiv (n d : Nat) : Nat :=
  let q := n / d
  let r := n % d
  if 2 * r < d || 2 * r == d && q % 2 == 0 then q else q + 1

/-- The exponent of the largest power of two that is not above `n / d`. -/
def log2Div (n d : Nat) : Int :=
  let k : Int := (n.log2 : Int) - d.log2
  let fits := if 0 ≤ k then d * powTwo k.toNat ≤ n else d ≤ n * powTwo (-k).toNat
  if fits then k else k - 1

/-- The exponent of the last bit that a double near `n / d` has. -/
def lastBit (n d : Nat) : Int := max (log2Div n d - 52) (-1074)

/-- How many units of `2 ^ e` the quotient `n / d` is, rounded. -/
def units (n d : Nat) (e : Int) : Nat :=
  if 0 ≤ e then roundDiv n (d * powTwo e.toNat) else roundDiv (n * powTwo (-e).toNat) d

/-- The double nearest to `q`. -/
def round (q : Rat) : Rat :=
  if q.num = 0 then 0
  else
    let e := lastBit q.num.natAbs q.den
    let m := units q.num.natAbs q.den e
    let magnitude : Rat :=
      if 0 ≤ e then (m * powTwo e.toNat : Nat) else mkRat m (powTwo (-e).toNat)
    if q.num < 0 then -magnitude else magnitude

/-- The sum of two doubles. -/
def add (a b : Rat) : Rat := round (a + b)

/-- The reciprocal of a double. -/
def inv (a : Rat) : Rat := round (1 / a)

/-- The least value that is too large for a double. -/
def overflow : Rat := (powTwo 1024 : Rat)

/-- The 64 bits of a double: sign, eleven bits of exponent, 52 bits of
fraction.  The number of units of the last bit carries over into the exponent
by itself. -/
def toBits (q : Rat) : Nat :=
  let n := q.num.natAbs
  let e := lastBit n q.den
  let magnitude := if n = 0 then 0 else units n q.den e + (e + 1074).toNat * powTwo 52
  (if q.num < 0 then powTwo 63 else 0) + min magnitude (2047 * powTwo 52)

/-- The bits as a numeral of sixteen hexadecimal digits. -/
def hexBits (q : Rat) : String := hex 16 (toBits q)

example : hexBits 0 = "0000000000000000" := by decide +kernel
example : hexBits (round (1 / 60)) = "3f91111111111111" := by decide +kernel
example : hexBits (round (1 / 3)) = "3fd5555555555555" := by decide +kernel
example : hexBits (round (-2)) = "c000000000000000" := by decide +kernel

/-- Ties go to the even neighbour. -/
example : round (2 ^ 53 + 1) = 2 ^ 53 ∧ round (2 ^ 53 + 3) = 2 ^ 53 + 4 := by decide +kernel

/-- The smallest double, the largest, and the first value beyond. -/
example : hexBits (round (mkRat 1 (2 ^ 1074))) = "0000000000000001"
    ∧ hexBits (round (2 ^ 1024 - 2 ^ 970 - 1)) = "7fefffffffffffff"
    ∧ round (2 ^ 1024 - 2 ^ 970) = overflow := by decide +kernel

end Chip8.Binary64
