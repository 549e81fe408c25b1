import Chip8.Extent
import Chip8.Font
import Chip8.Word

/-!
# Chip8.Memory

A byte-addressable memory of a fixed size, which remembers where the font was
last installed.  Every write either happens as a whole or is refused, so
writing gives a new memory or a fault.  A block that reaches past the end
cannot be read, which is an answer and not a fault.
-/

namespace Chip8

/-- A memory of `size` bytes. -/
structure Memory (size : Nat) where
  bytes : Vector UInt8 size
  fontLocation : Int

namespace Memory

variable {size : Nat}

/-- A memory full of zeros. -/
def blank (size : Nat) : Memory size := ⟨Vector.replicate size 0, 0⟩

/-- A memory of a size that is asked for. -/
def ofSize (size : Int) : Except Fault (Memory size.toNat) :=
  (checkSize size).map fun _ => blank size.toNat

/-- The place of an address. -/
def locate (size : Nat) (a : Int) : Except Fault (Fin size) :=
  if h : 0 ≤ a ∧ a < size then .ok ⟨a.toNat, by omega⟩ else .error (.outsideMemory a)

/-- The byte at an address. -/
def load (m : Memory size) (a : Int) : Except Fault UInt8 := do
  let k ← locate size a
  return m.bytes[k]

/-- The `count` bytes from `a` on, if they are all there. -/
def loadMany (m : Memory size) (a count : Int) : Option (List UInt8) :=
  if h : 0 ≤ a ∧ 0 ≤ count ∧ a + count ≤ size then
    some (List.ofFn fun k : Fin count.toNat => m.bytes.get ⟨a.toNat + k.val, by omega⟩)
  else none

/-- Puts a byte at an address. -/
def store (m : Memory size) (a value : Int) : Except Fault (Memory size) := do
  let k ← locate size a
  match byte? value with
  | some b => return { m with bytes := m.bytes.set k b }
  | none => throw (.notByte value)

/-- The bytes with `block` written over them from place `k` on. -/
def overwrite (bytes : Vector UInt8 size) (k : Nat) : List UInt8 → Vector UInt8 size
  | [] => bytes
  | b :: rest => overwrite (bytes.setIfInBounds k b) (k + 1) rest

/-- The place of the first of `count` addresses from `a` on; the first and the
last are looked at. -/
def locateBlock (size : Nat) (a : Int) (count : Nat) : Except Fault (Fin size) := do
  let k ← locate size a
  let _ ← locate size (a + count - 1)
  return k

/-- Writes a block of bytes from `a` on. -/
def storeBytes (m : Memory size) (a : Int) (block : List UInt8) : Except Fault (Memory size) :=
  if block.isEmpty then return m
  else do
    let k ← locateBlock size a block.length
    return { m with bytes := overwrite m.bytes k block }

/-- Writes a block of numbers from `a` on.  The addresses are looked at before
the numbers. -/
def storeMany (m : Memory size) (a : Int) (block : List Int) : Except Fault (Memory size) :=
  if block.isEmpty then return m
  else do
    let k ← locateBlock size a block.length
    match block.mapM byte? with
    | some bytes => return { m with bytes := overwrite m.bytes k bytes }
    | none => throw .blockNotBytes

/-- Writes the font from `a` on and remembers where it is. -/
def installFont (m : Memory size) (a : Int) : Except Fault (Memory size) := do
  let m ← m.storeBytes a systemFont
  return { m with fontLocation := a }

/-- Where the shape of a digit is. -/
def glyphAddress (m : Memory size) (digit : Int) : Int := m.fontLocation + glyphSize * digit

/-- Sets every byte to zero.  Where the font was last installed is kept. -/
def clear (m : Memory size) : Memory size := { m with bytes := Vector.replicate size 0 }

/-! ## Places and bytes -/

/-- An address has a place exactly when it is within the memory. -/
theorem locate_eq_ok_iff {a : Int} {k : Fin size} : locate size a = .ok k ↔ a = k.val := by
  unfold locate
  split
  · rename_i h
    rw [Except.ok.injEq, Fin.ext_iff]
    simp only
    omega
  · rename_i h
    have := k.isLt
    simp only [reduceCtorEq, false_iff]
    omega

/-- Writing a block changes the bytes that it covers and no other. -/
theorem getElem_overwrite (bytes : Vector UInt8 size) (k : Nat) (block : List UInt8) (j : Nat)
    (hj : j < size) :
    (overwrite bytes k block)[j] =
      if h : k ≤ j ∧ j - k < block.length then block[j - k] else bytes[j] := by
  induction block generalizing bytes k with
  | nil => simp [overwrite]
  | cons b rest ih =>
    rw [overwrite, ih]
    by_cases hk : k = j
    · subst hk
      rw [dif_neg (by omega), dif_pos (by simp)]
      simp
    · by_cases hle : k + 1 ≤ j ∧ j - (k + 1) < rest.length
      · rw [dif_pos hle, dif_pos (by simp only [List.length_cons]; omega)]
        have : j - k = j - (k + 1) + 1 := by omega
        simp [this]
      · rw [dif_neg hle, dif_neg (by simp only [List.length_cons]; omega)]
        simp [hk]

end Memory

end Chip8
