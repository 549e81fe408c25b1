import Chip8.Keypad
import Chip8.Memory
import Chip8.Processor
import Chip8.Screen

/-!
# Chip8.Machine

The whole machine: memory, processor, screen and keypad, where its font and its
programs go, and what it last did.
-/

namespace Chip8

/-- Why the machine stopped. -/
inductive HaltReason
  | invalidInstruction
  | stackUnderflow
  | stackOverflow
  | endOfMemory
  deriving DecidableEq, Repr

namespace HaltReason

def name : HaltReason → String
  | invalidInstruction => "INVALID_INSTRUCTION"
  | stackUnderflow => "STACK_UNDERFLOW"
  | stackOverflow => "STACK_OVERFLOW"
  | endOfMemory => "END_OF_MEMORY"

/-- The reason in words. -/
def text : HaltReason → String
  | invalidInstruction => "invalid instruction"
  | stackUnderflow => "return without a call"
  | stackOverflow => "call stack full"
  | endOfMemory => "end of memory"

end HaltReason

/-- The state of the machine. -/
structure Machine where
  memory : Memory 0x1000
  processor : Processor
  screen : Screen 64 32
  keypad : Keypad
  /-- Where the font goes. -/
  fontLocation : Int
  /-- Where programs go. -/
  programStart : Int
  /-- What the last step found at the program counter. -/
  lastOp : Option Instruction
  /-- Why the machine halted, if it did. -/
  haltReason : Option HaltReason
  /-- The word at which it halted. -/
  haltWord : Option Nat

namespace Machine

/-! ## Building and resetting -/

/-- Where the font goes unless something else is asked for. -/
def defaultFontLocation : Int := 0

/-- Where programs go unless something else is asked for. -/
def defaultProgramStart : Int := 0x200

/-- How many calls may be under way unless something else is asked for. -/
def defaultStackLimit : Int := 16

/-- A machine without a font. -/
def blank (stackLimit fontLocation programStart : Int) (rng : Rng) : Machine :=
  { memory := Memory.blank 0x1000
    processor := Processor.idle (CallStack.ofLimit stackLimit) rng
    screen := Screen.blank 64 32
    keypad := Keypad.released
    fontLocation
    programStart
    lastOp := none
    haltReason := none
    haltWord := none }

/-- Writes the font to a location, or again to the one it was last meant for,
and points the index register at zero.  The location is noted even if the font
does not fit there. -/
def installFont (m : Machine) (location : Option Int) : Except Fault Unit × Machine :=
  let m := { m with fontLocation := location.getD m.fontLocation }
  match m.memory.installFont m.fontLocation with
  | .ok memory => (.ok (), { m with memory, processor := { m.processor with i := 0 } })
  | .error e => (.error e, m)

/-- A machine with its font installed. -/
def create (stackLimit fontLocation programStart : Option Int) (rng : Rng) :
    Except Fault Machine :=
  let m := blank (stackLimit.getD defaultStackLimit) (fontLocation.getD defaultFontLocation)
    (programStart.getD defaultProgramStart) rng
  match m.installFont none with
  | (.ok (), m) => .ok m
  | (.error e, _) => .error e

/-- Puts memory and processor back to the start. -/
def cleared (m : Machine) : Machine :=
  { m with memory := m.memory.clear, processor := m.processor.reset, lastOp := none }

/-- Puts screen and keypad back to the start, and forgets why the machine
halted. -/
def quieted (m : Machine) : Machine :=
  { m with
    screen := m.screen.clear, keypad := Keypad.released, haltReason := none, haltWord := none }

/-- Puts everything back to the start, except where things go and the source of
random numbers.  If the font does not fit where it was last meant to go, the
screen, the keypad and the reason for halting are left as they are. -/
def reset (m : Machine) : Except Fault Unit × Machine :=
  match m.cleared.installFont none with
  | (.ok (), m) => (.ok (), m.quieted)
  | (.error e, m) => (.error e, m)

/-! ## Fetching -/

/-- The word at the program counter, if there is room for one. -/
def fetch (m : Machine) : Option Nat :=
  match m.memory.loadMany m.processor.pc 2 with
  | some [hi, lo] => some (joinBytes hi lo)
  | _ => none

/-- Notes that the machine halted. -/
def halt (m : Machine) (reason : HaltReason) (word : Option Nat) : Machine :=
  { m with haltReason := some reason, haltWord := word }

end Machine

end Chip8
