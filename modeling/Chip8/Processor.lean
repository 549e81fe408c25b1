import Chip8.CallStack
import Chip8.Extent
import Chip8.Instruction
import Chip8.Rng
import Chip8.Word

/-!
# Chip8.Processor

The register file, the program counter, the index register, the two timers and
the call stack, with the primitive operations that instructions are made of.

Registers hold bytes.  The other numbers are unbounded: an operation that sets
the program counter or the index register keeps twelve bits, but a caller may
have put anything there before.

The flag register VF is written after the target register, so if VF is the
target the flag is what remains.  Subtraction sets the flag when there is *no*
borrow.
-/

namespace Chip8

/-- The state of the processor. -/
structure Processor where
  /-- The registers V0 to VF. -/
  v : Vector UInt8 16
  /-- The index register. -/
  i : Int
  /-- The program counter. -/
  pc : Int
  /-- The delay timer. -/
  dt : Int
  /-- The sound timer. -/
  st : Int
  stack : CallStack
  rng : Rng

/-- The lowest twelve bits of an address. -/
def wrap (a : Int) : Int := a % 0x1000

/-- The bitwise AND of two numbers, negative ones having endless leading
ones. -/
def andBits : Int → Int → Int
  | .ofNat a, .ofNat b => .ofNat (a &&& b)
  | .ofNat a, .negSucc b => .ofNat (a - (a &&& b))
  | .negSucc a, .ofNat b => .ofNat (b - (a &&& b))
  | .negSucc a, .negSucc b => .negSucc (a ||| b)

namespace Processor

/-- The register that holds flags. -/
def flagRegister : Register := Fin.last 0xF

/-- A processor at rest. -/
def idle (stack : CallStack) (rng : Rng) : Processor :=
  { v := Vector.replicate 16 0, i := 0, pc := 0, dt := 0, st := 0, stack := stack.clear, rng }

/-- Puts everything back to rest.  The source of random numbers goes on where it
is. -/
def reset (p : Processor) : Processor := idle p.stack p.rng

/-! ## Program counter -/

/-- Goes on to the next instruction. -/
def next (p : Processor) : Processor := { p with pc := wrap (p.pc + 2) }

/-- Goes on to the next instruction, or past it. -/
def skipIf (p : Processor) (condition : Bool) : Processor :=
  { p with pc := wrap (p.pc + if condition then 4 else 2) }

/-- Goes to an address. -/
def jump (p : Processor) (a : Int) : Processor := { p with pc := wrap a }

/-- Goes to an address that V0 is added to. -/
def jumpOffset (p : Processor) (a : Int) : Processor :=
  { p with pc := wrap (p.v[0].toNat + a) }

/-- Calls the subroutine at an address.  The address of the call itself is
saved, and `ret` steps over it. -/
def call (p : Processor) (a : Int) : Except Fault Processor := do
  let stack ← p.stack.push p.pc
  return { p with stack, pc := wrap a }

/-- Where there is room on the stack, a call is made. -/
theorem call_of_room {p : Processor} (h : p.stack.isFull = false) (a : Int) :
    p.call a =
      .ok { p with stack := { p.stack with frames := p.pc :: p.stack.frames }, pc := wrap a } := by
  rw [call, CallStack.push_of_room h]
  rfl

/-- Returns to the instruction after the most recent call, if there is one. -/
def ret (p : Processor) : Option Processor :=
  match p.stack.pop with
  | .ok (a, stack) => some { p with stack, pc := wrap (a + 2) }
  | .error _ => none

/-! ## Registers -/

/-- Puts a byte into a register. -/
def setV (p : Processor) (x : Register) (b : UInt8) : Processor := { p with v := p.v.set x b }

/-- Puts one or zero into the flag register. -/
def setFlag (p : Processor) (flag : Bool) : Processor :=
  p.setV flagRegister (if flag then 1 else 0)

/-- Puts the lowest eight bits of a number into a register. -/
def load (p : Processor) (x : Register) (n : Int) : Processor := p.setV x (lowByte n)

/-- Adds a number to a register, without a flag. -/
def addImm (p : Processor) (x : Register) (n : Int) : Processor :=
  p.setV x (lowByte (p.v[x].toNat + n))

def move (p : Processor) (x y : Register) : Processor := p.setV x p.v[y]

def or (p : Processor) (x y : Register) : Processor := p.setV x (p.v[x] ||| p.v[y])

def and (p : Processor) (x y : Register) : Processor := p.setV x (p.v[x] &&& p.v[y])

def xor (p : Processor) (x y : Register) : Processor := p.setV x (p.v[x] ^^^ p.v[y])

/-- Adds Vy to Vx; the flag is the carry. -/
def addReg (p : Processor) (x y : Register) : Processor :=
  (p.setV x (p.v[x] + p.v[y])).setFlag (0xFF < p.v[x].toNat + p.v[y].toNat)

/-- Subtracts Vy from Vx; the flag says that nothing was borrowed. -/
def subReg (p : Processor) (x y : Register) : Processor :=
  (p.setV x (p.v[x] - p.v[y])).setFlag (p.v[y] ≤ p.v[x])

/-- Subtracts Vx from Vy into Vx; the flag says that nothing was borrowed. -/
def subRegRev (p : Processor) (x y : Register) : Processor :=
  (p.setV x (p.v[y] - p.v[x])).setFlag (p.v[x] ≤ p.v[y])

/-- Shifts Vx right by one; the flag is the bit that falls out. -/
def shiftRight (p : Processor) (x : Register) : Processor :=
  (p.setV x (p.v[x] >>> 1)).setFlag (p.v[x].toNat.testBit 0)

/-- Shifts Vx left by one; the flag is the bit that falls out. -/
def shiftLeft (p : Processor) (x : Register) : Processor :=
  (p.setV x (p.v[x] <<< 1)).setFlag (p.v[x].toNat.testBit 7)

/-- Draws a random number and puts its AND with `mask` into a register, if that
is a byte.  The draw is made in any case. -/
def random (p : Processor) (x : Register) (mask : Int) : Except Fault Unit × Processor :=
  let drawn := { p with rng := p.rng.advance }
  match byte? (andBits p.rng.next mask) with
  | some b => (.ok (), drawn.setV x b)
  | none => (.error .registerValue, drawn)

/-! ## Index register and timers -/

/-- Points the index register at an address. -/
def loadI (p : Processor) (a : Int) : Processor := { p with i := wrap a }

/-- Adds Vx to the index register. -/
def addToI (p : Processor) (x : Register) : Processor :=
  { p with i := wrap (p.i + p.v[x].toNat) }

/-- Copies the delay timer to Vx, if it is a byte. -/
def getDelay (p : Processor) (x : Register) : Except Fault Processor :=
  match byte? p.dt with
  | some b => .ok (p.setV x b)
  | none => .error .registerValue

/-- Starts the delay timer from Vx. -/
def setDelay (p : Processor) (x : Register) : Processor := { p with dt := p.v[x].toNat }

/-- Starts the sound timer from Vx. -/
def setSound (p : Processor) (x : Register) : Processor := { p with st := p.v[x].toNat }

/-- Counts both timers down by one; they stay at zero. -/
def tick (p : Processor) : Processor :=
  { p with dt := max 0 (p.dt - 1), st := max 0 (p.st - 1) }

/-! ## Registers by number -/

theorem toNat_lt_sixteen {index : Int} (h : 0 ≤ index ∧ index < 16) : index.toNat < 16 := by
  omega

/-- The register with a given number. -/
def register (index : Int) : Except Fault Register :=
  if h : 0 ≤ index ∧ index < 16 then .ok ⟨index.toNat, toNat_lt_sixteen h⟩
  else .error (.noSuchRegister index)

/-- Does something with the register of a given number. -/
def onRegister {α : Type} (p : Processor) (x : Int) (f : Processor → Register → α) :
    Except Fault α := do
  let x ← register x
  return f p x

/-- Does something with the registers of two given numbers; the first is looked
at before the second. -/
def onRegisters {α : Type} (p : Processor) (x y : Int) (f : Processor → Register → Register → α) :
    Except Fault α := do
  let x ← register x
  let y ← register y
  return f p x y

/-- Puts a number into a place of the register file.  Negative places count
from the end. -/
def place (p : Processor) (index value : Int) : Except Fault Processor :=
  if !isIndex index then .error .registerIndexTooLarge
  else if h : -16 ≤ index ∧ index < 16 then
    match byte? value with
    | some b => .ok (p.setV ⟨(index % 16).toNat, by omega⟩ b)
    | none => .error .registerValue
  else .error .registerIndex

end Processor

end Chip8
