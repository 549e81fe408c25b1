/-!
# Chip8.Rng

A source of random numbers, as a sequence and the number of draws made from it
so far.  Numbers between 0 and 255 are expected, but nothing here relies on
that.
-/

namespace Chip8

/-- A sequence of numbers and a position in it. -/
structure Rng where
  draw : Nat → Int
  count : Nat := 0

namespace Rng

/-- The next number. -/
def next (r : Rng) : Int := r.draw r.count

/-- The source after one more draw. -/
def advance (r : Rng) : Rng := { r with count := r.count + 1 }

/-- A source that goes through a list over and over; without a list it gives
zeros. -/
def cycle (values : List Int) : Rng :=
  let table := values.toArray
  { draw := fun k => table[k % table.size]?.getD 0 }

/-- A well mixed number for every number. -/
def mix (z : UInt64) : UInt64 :=
  let z := (z ^^^ (z >>> 30)) * 0xBF58476D1CE4E5B9
  let z := (z ^^^ (z >>> 27)) * 0x94D049BB133111EB
  z ^^^ (z >>> 31)

/-- A source of bytes that depends on a seed. -/
def ofSeed (seed : UInt64) : Rng :=
  { draw := fun k => (mix (seed + (k.toUInt64 + 1) * 0x9E3779B97F4A7C15) >>> 56).toNat }

end Rng

end Chip8
