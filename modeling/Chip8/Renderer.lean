import Chip8.Extent
import Chip8.Screen

/-!
# Chip8.Renderer

What shows the pictures of the screen.  A headless renderer only keeps the last
picture.  A windowed one stretches every picture over a window: it keeps a
buffer of three bytes a pixel, which is allocated anew when the size of the
pictures changes and written over otherwise.

A window is known by the calls that are made to the window system, in order.
-/

namespace Chip8

/-- A call to the window system. -/
inductive WindowCall
  | initialise
  | caption (text : String)
  | mode (width height : Int)
  | surface (pixels : List UInt8) (width height : Int)
  | stretch (width height : Int)
  | blit
  | flip
  | quit
  deriving DecidableEq, Repr

/-- A window: its size, the pixels of the last picture, and the calls made so
far. -/
structure Window where
  width : Int
  height : Int
  buffer : List UInt8
  calls : Array WindowCall
  deriving Repr

/-- A renderer, with a window or without. -/
structure Renderer where
  scale : Int
  /-- The size of the pictures that the window is prepared for. -/
  width : Int
  height : Int
  framesDrawn : Nat
  lastFrame : Option Picture
  window : Option Window
  deriving Repr

/-- A window cannot be this narrow. -/
structure WindowTooNarrow where
  width : Int
  deriving DecidableEq, Repr

/-- The least width of a window. -/
def Window.leastWidth : Int := 64

def WindowTooNarrow.message (_ : WindowTooNarrow) : String :=
  "The window must be at least " ++ toString Window.leastWidth ++ " pixels wide."

/-- The name that windows have. -/
def applicationName : String := "Chip8Core Emulator"

namespace Window

/-- The bytes of a pixel that is dark. -/
def background : List UInt8 := [0x22, 0x22, 0x22]

/-- The bytes of a pixel that is lit. -/
def foreground : List UInt8 := [0xDD, 0xDD, 0xDD]

/-- The bytes of a pixel. -/
def colour (lit : Bool) : List UInt8 := if lit then foreground else background

/-- Adds calls to those made so far. -/
def call (w : Window) (calls : List WindowCall) : Window :=
  { w with calls := w.calls ++ calls.toArray }

/-- A new window of half the height of its width. -/
def opened (width : Int) : Window :=
  let height := width / 2
  { width, height, buffer := [],
    calls := #[.initialise, .caption applicationName, .mode width height] }

/-- A buffer for dark pictures of a size. -/
def prepare (w : Window) (width height : Int) : Window :=
  { w with buffer := (List.replicate (width * height).toNat background).flatten }

/-- Writes pixels over the front of the buffer.  What they do not reach stays,
and what reaches past the end makes the buffer longer. -/
def paint (w : Window) (pixels : List Bool) : Window :=
  { w with buffer := pixels.flatMap colour ++ w.buffer.drop (3 * pixels.length) }

/-- Shows the buffer as a picture of a size. -/
def present (w : Window) (width height : Int) : Window :=
  w.call [.surface w.buffer width height, .stretch w.width w.height, .blit, .flip]

theorem length_colour (lit : Bool) : (colour lit).length = 3 := by
  cases lit <;> rfl

theorem length_prepare (w : Window) (width height : Int) :
    (w.prepare width height).buffer.length = 3 * (width * height).toNat := by
  simp [prepare, background, Nat.mul_comm]

end Window

namespace Renderer

/-- The width of the window unless something else is asked for. -/
def defaultWindowWidth : Int := 512

/-- A renderer without a window. -/
def headless (scale : Option Int) : Renderer :=
  { scale := scale.getD 1, width := 0, height := 0, framesDrawn := 0, lastFrame := none,
    window := none }

/-- A renderer with a new window. -/
def windowed (scale : Option Int) : Except WindowTooNarrow Renderer :=
  let scale := scale.getD defaultWindowWidth
  if scale < Window.leastWidth then .error ⟨scale⟩
  else
    .ok
      { scale, width := 0, height := 0, framesDrawn := 0, lastFrame := none,
        window := some (Window.opened scale) }

/-- The calls made to the window system so far. -/
def calls (r : Renderer) : Array WindowCall :=
  match r.window with
  | none => #[]
  | some w => w.calls

/-- Prepares for pictures of a size. -/
def resize (r : Renderer) (width height : Int) : Renderer :=
  { r with width, height, window := r.window.map (·.prepare width height) }

/-- Prepares for pictures of a size that is asked for.  With a window, a buffer of
that size has to be possible. -/
def setResolution (r : Renderer) (width height : Int) : Except Fault Renderer := do
  if r.window.isSome then
    checkBuffer (width * height)
  return r.resize width height

/-- The width and height of a picture; the top row decides the width. -/
def pictureSize (p : Picture) : Int × Int :=
  match p with
  | [] => (0, 0)
  | top :: _ => (top.length, p.length)

/-- Shows a picture in the window, if there is one and the picture has pixels. -/
def present (r : Renderer) (p : Picture) : Renderer :=
  match r.window with
  | none => r
  | some _ =>
    let (width, height) := pictureSize p
    let r := if (width, height) = (r.width, r.height) then r else r.resize width height
    let paint (w : Window) : Window :=
      let w := w.paint p.flatten
      if width = 0 ∨ height = 0 then w else w.present width height
    { r with window := r.window.map paint }

/-- Draws a picture and remembers it. -/
def drawFrame (r : Renderer) (p : Picture) : Renderer :=
  let r := r.present p
  { r with lastFrame := some p, framesDrawn := r.framesDrawn + 1 }

/-- Puts a title on the window. -/
def setTitle (r : Renderer) (title : String) : Renderer :=
  { r with window := r.window.map (·.call [.caption title]) }

/-- Closes the window. -/
def shutdown (r : Renderer) : Renderer :=
  { r with window := r.window.map (·.call [.quit]) }

end Renderer

end Chip8
