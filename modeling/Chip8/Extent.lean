import Chip8.Fault

/-!
# Chip8.Extent

How large a memory, a screen or a window's buffer may be.  Places are counted
with numbers of 64 bits and a sign, so a size beyond these is refused before
anything else is asked of it; a negative one, and one that there is no room for,
come after that.
-/

namespace Chip8

/-- Whether a number can count places. -/
def isIndex (n : Int) : Bool := -0x8000000000000000 ≤ n && n < 0x8000000000000000

/-- The most bytes that there is room for.  It is for the computer to say how many
that are, and four gigabytes stand for its answer: what is asked for beyond them is
refused, where the computer may still have had room for it. -/
def room : Nat := 0x100000000

/-- Whether a memory or a screen may have `n` places. -/
def checkSize (n : Int) : Except Fault Unit :=
  if !isIndex n then .error .sizeTooLarge
  else if n < 0 then .error .negativeSize
  else if room < n then .error .noRoom
  else .ok ()

/-- Whether a buffer may have three bytes for each of `n` pixels.  A negative
number of them leaves it empty. -/
def checkBuffer (n : Int) : Except Fault Unit :=
  if !isIndex n then .error .sizeTooLarge
  else if !isIndex (3 * max 0 n) then .error .bufferTooLong
  else if room < 3 * max 0 n then .error .noRoom
  else .ok ()

end Chip8
