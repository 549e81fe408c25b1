import Chip8.Time.Binary64

/-!
# Chip8.Time.Clock

A clock is a sequence of readings, in seconds, of which a limited number can be
had.  Nothing is assumed about the readings; a clock that runs backwards is a
clock.
-/

namespace Chip8

/-- A point in time or a span of time, in seconds. -/
abbrev Time := Rat

/-- A sequence of readings, how many of them there are, and how many have been
taken. -/
structure Clock where
  reading : Nat → Time
  limit : Int
  reads : Nat := 0

namespace Clock

/-- The next reading, if there is one left. -/
def read? (c : Clock) : Option (Time × Clock) :=
  if c.reads < c.limit then some (c.reading c.reads, { c with reads := c.reads + 1 }) else none

/-- How many readings are left. -/
def remaining (c : Clock) : Nat := (c.limit - c.reads).toNat

/-- A reading leaves fewer of them. -/
theorem remaining_lt_of_read? {c d : Clock} {t : Time} (h : c.read? = some (t, d)) :
    d.remaining < c.remaining := by
  unfold read? at h
  split at h
  · simp only [Option.some.injEq, Prod.mk.injEq] at h
    obtain ⟨-, rfl⟩ := h
    simp only [remaining]
    omega
  · simp at h

/-- A clock that starts at `start / hz` seconds and goes on by `step / hz` with
every reading, each rounded to a double. -/
def steady (start step : Int) (hz : Int) (limit : Int) : Clock :=
  { reading := fun k => Binary64.round (((start + k * step : Int) : Rat) / (hz : Rat)), limit }

end Clock

end Chip8
