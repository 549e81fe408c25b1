import Chip8.Extent
import Chip8.Word

/-!
# Chip8.Screen

A bitmap of single-colour pixels.  Nothing writes a pixel directly: sprites
turn pixels around, and turning a lit pixel dark is reported as a collision.
Coordinates wrap around both edges, pixel by pixel.

Pixels are kept row by row.  The mark `dirty` is set by every change, so that
whoever shows the screen knows when to look again.
-/

namespace Chip8

/-- A picture: rows of pixels, top row first. -/
abbrev Picture := List (List Bool)

/-- The pixels of a screen, and whether they may have changed since it was last
shown. -/
structure Screen (width height : Int) where
  pixels : Vector Bool (width * height).toNat
  dirty : Bool

namespace Screen

variable {w h : Int}

/-- A dark screen that has not been shown yet. -/
def blank (w h : Int) : Screen w h := ⟨Vector.replicate _ false, true⟩

/-- A dark screen of a size that is asked for. -/
def ofSize (w h : Int) : Except Fault (Screen w h) :=
  (checkSize (w * h)).map fun _ => blank w h

/-- The place of the pixel at `(x, y)`, both taken modulo the size of the
screen.  A screen without pixels has no places. -/
def locate (w h x y : Int) : Except Fault (Fin (w * h).toNat) :=
  if hpos : 0 < w * h then
    .ok ⟨((y.fmod h * w + x.fmod w) % (w * h)).toNat, by
      have := Int.emod_lt_of_pos (y.fmod h * w + x.fmod w) hpos
      have := Int.emod_nonneg (y.fmod h * w + x.fmod w) (Int.ne_of_gt hpos)
      omega⟩
  else .error .emptySide

/-- Whether a pixel is lit. -/
def get (s : Screen w h) (x y : Int) : Except Fault Bool := do
  let k ← locate w h x y
  return s.pixels[k]

/-- Turns a pixel around; the answer is whether it was lit. -/
def xorPixel (s : Screen w h) (x y : Int) : Except Fault (Bool × Screen w h) := do
  let k ← locate w h x y
  return (s.pixels[k], ⟨s.pixels.set k (!s.pixels[k]), true⟩)

/-- Turns pixels around one after the other; the answer is whether any of them
was lit when its turn came. -/
def xorPixels (s : Screen w h) : List (Int × Int) → Except Fault (Bool × Screen w h)
  | [] => .ok (false, s)
  | (x, y) :: rest => do
    let (lit, s) ← s.xorPixel x y
    let (hit, s) ← s.xorPixels rest
    return (lit || hit, s)

/-! ## Sprites -/

/-- The columns in which a row of a sprite has a pixel, from the left. -/
def litColumns (row : UInt8) : List Nat :=
  (List.range 8).filter fun c => row.toNat.testBit (7 - c)

/-- The columns and rows in which a sprite has a pixel, row by row. -/
def litPoints (rows : List UInt8) : List (Nat × Nat) :=
  rows.zipIdx.flatMap fun (row, r) => (litColumns row).map fun c => (c, r)

/-- Draws a sprite with its top left corner at `(x, y)`; the answer is whether
there was a collision. -/
def drawSprite (s : Screen w h) (x y : Int) (rows : List UInt8) :
    Except Fault (Bool × Screen w h) :=
  s.xorPixels ((litPoints rows).map fun (c, r) => (x + c, y + r))

/-- The rows before the first number that is no byte, and that number. -/
def readRows : List Int → List UInt8 × Option Int
  | [] => ([], none)
  | n :: rest =>
    match byte? n with
    | none => ([], some n)
    | some b => ((b :: (readRows rest).1), (readRows rest).2)

/-- Draws a sprite whose rows are given as numbers.  A number that is no byte is
refused when its turn comes: the rows above it have been drawn by then. -/
def draw (s : Screen w h) (x y : Int) (rows : List Int) : Except Fault Bool × Screen w h :=
  let (good, bad) := readRows rows
  match s.drawSprite x y good with
  | .error e => (.error e, s)
  | .ok (hit, t) =>
    match bad with
    | none => (.ok hit, t)
    | some n => (.error (.spriteRow n), t)

/-! ## The whole screen -/

/-- Makes every pixel dark. -/
def clear (_ : Screen w h) : Screen w h := blank w h

/-- Notes that the screen has been shown. -/
def shown (s : Screen w h) : Screen w h := { s with dirty := false }

/-- A place in a row lies within the screen. -/
theorem place_lt {x y : Nat} (hx : x < w.toNat) (hy : y < h.toNat) :
    y * w.toNat + x < (w * h).toNat := by
  have hw : ((w.toNat : Nat) : Int) = w := Int.toNat_of_nonneg (by omega)
  have hh : ((h.toNat : Nat) : Int) = h := Int.toNat_of_nonneg (by omega)
  have harea : (w * h).toNat = w.toNat * h.toNat := by
    rw [← hw, ← hh]
    simp only [Int.toNat_natCast]
    rw [← Int.natCast_mul, Int.toNat_natCast]
  rw [harea]
  calc y * w.toNat + x < y * w.toNat + w.toNat := by omega
    _ = w.toNat * (y + 1) := by rw [Nat.mul_add, Nat.mul_one, Nat.mul_comm]
    _ ≤ w.toNat * h.toNat := Nat.mul_le_mul_left _ hy

/-- The picture on the screen. -/
def rows (s : Screen w h) : Picture :=
  List.ofFn fun y : Fin h.toNat =>
    List.ofFn fun x : Fin w.toNat => s.pixels.get ⟨y.val * w.toNat + x.val, place_lt x.isLt y.isLt⟩

theorem length_rows (s : Screen w h) : s.rows.length = h.toNat := by
  simp [rows]

end Screen

end Chip8
