import Chip8.Log
import Chip8.Machine.Perform
import Chip8.Program

/-!
# Chip8.Emulator

A machine that reports what it does.  The emulator loads programs, runs the
cycle of fetching, decoding and carrying out, and takes the key events and the
sixty-hertz tick of whatever drives it.  There is no clock in here and nothing
waits.

A step answers whether an instruction was carried out; if not, the machine has
halted and says why.  Calls that are refused give a fault, and the state as the
call left it.
-/

namespace Chip8

/-- A machine and the log that it writes to. -/
structure Emulator extends Machine where
  log : Log

namespace Emulator

/-- Changes the machine and keeps the log. -/
def withMachine (e : Emulator) (m : Machine) : Emulator := { e with toMachine := m }

/-- Adds a line to the log. -/
def note (e : Emulator) (level : Level) (text : Unit → String) : Emulator :=
  { e with log := e.log.add level .emulator text }

/-- An emulator with its font installed. -/
def create (stackLimit fontLocation programStart : Option Int) (rng : Rng) (log : Log) :
    Except Fault Emulator := do
  let m ← Machine.create stackLimit fontLocation programStart rng
  return { toMachine := m, log }

/-- Puts the machine back to the start. -/
def reset (e : Emulator) : Except Fault Unit × Emulator :=
  let (r, m) := e.toMachine.reset
  (r, e.withMachine m)

/-- Installs the font, at a new location if one is given. -/
def installFont (e : Emulator) (location : Option Int) : Except Fault Unit × Emulator :=
  let (r, m) := e.toMachine.installFont location
  (r, e.withMachine m)

/-! ## Loading programs -/

/-- Writes a program to where programs go, and points the program counter at
it. -/
def loadProgram (e : Emulator) (data : List UInt8) : Except Fault Emulator :=
  if (0x1000 : Int) < e.programStart + data.length then
    .error (.programTooLong data.length e.programStart)
  else do
    let memory ← e.memory.storeBytes e.programStart data
    let e := { e with memory, processor := { e.processor with pc := e.programStart } }
    return e.note .debug fun _ =>
      "Loaded " ++ toString data.length ++ " bytes at 0x" ++ hex 3 e.programStart

/-- Loads a program that is given as words. -/
def loadWords (e : Emulator) (words : List Int) : Except Fault Emulator := do
  e.loadProgram (← Program.ofWords words)

/-- Loads a program that is given as operations. -/
def loadOperations (e : Emulator) (items : List Item) : Except Fault Emulator := do
  e.loadProgram (← Program.encode items)

/-! ## Carrying out instructions -/

/-- The state of the processor before an instruction, and the instruction, on
one line. -/
def traceLine (m : Machine) (pc word : Int) (mnemonic : String) : String :=
  let p := m.processor
  "V: 0x" ++ String.join (p.v.toList.reverse.map fun b => hex 2 b.toNat)
    ++ " I: 0x" ++ hex 3 p.i ++ " DT: 0x" ++ hex 2 p.dt ++ " ST: 0x" ++ hex 2 p.st
    ++ " SP: " ++ toString p.stack.depth ++ " PC: 0x" ++ hex 3 pc ++ " OP: 0x" ++ hex 4 word
    ++ " IN: " ++ mnemonic

/-- The line that tracing an item at an address shows. -/
def trace (e : Emulator) (pc word : Int) (item : Item) : Except Fault String := do
  return traceLine e.toMachine pc word (← item.mnemonic)

/-- Reports that the call stack stopped the machine.  A report that cannot be
written is left out. -/
def noteStackHalt (e : Emulator) : HaltReason → Emulator
  | .stackUnderflow =>
    e.note .warning fun _ => "RET at 0x" ++ hex 3 e.processor.pc ++ " with an empty call stack"
  | .stackOverflow =>
    match numeral? e.processor.stack.limit with
    | some deep =>
      e.note .warning fun _ =>
        "CALL at 0x" ++ hex 3 e.processor.pc ++ " with a full call stack (" ++ deep ++ " deep)"
    | none => e
  | _ => e

/-- Carries out an instruction; the answer is whether it could be done. -/
def carryOut (e : Emulator) (i : Instruction) : Except Fault Bool × Emulator :=
  match e.toMachine.perform i with
  | .ok m => (.ok true, e.withMachine m)
  | .error (.halt reason) =>
    let e := e.noteStackHalt reason
    (.ok false, e.withMachine (e.toMachine.halt reason none))
  | .error (.fault cause) => (.error cause, e)

/-- Carries out an item, wherever the program counter is. -/
def execute (e : Emulator) (item : Item) : Except Fault Bool × Emulator :=
  match item.check with
  | .ok i => e.carryOut i
  | .error cause => (.error cause, e)

/-- Notes and traces the instruction that comes next, whose word was fetched. -/
def arrive (e : Emulator) (word : Nat) (i : Instruction) : Emulator :=
  let e := { e with lastOp := some i }
  e.note .debug fun _ => traceLine e.toMachine e.processor.pc word i.mnemonic

/-- Fetches a word, decodes it and carries it out; the answer is whether the
machine goes on. -/
def step (e : Emulator) : Except Fault Bool × Emulator :=
  let pc := e.processor.pc
  match e.fetch with
  | none =>
    let e := e.note .info fun _ => "Halted: no room for an instruction at 0x" ++ hex 3 pc
    (.ok false, e.withMachine (e.toMachine.halt .endOfMemory none))
  | some word =>
    match Instruction.ofWord? word with
    | none =>
      let e := { e with lastOp := none }
      let e := e.note .info fun _ =>
        "Halted: invalid instruction 0x" ++ hex 4 word ++ " at 0x" ++ hex 3 pc
      (.ok false, e.withMachine (e.toMachine.halt .invalidInstruction (some word)))
    | some i =>
      match (e.arrive word i).carryOut i with
      | (.ok true, e) => (.ok true, { e with haltReason := none, haltWord := none })
      | (.ok false, e) => (.ok false, { e with haltWord := some word })
      | (.error cause, e) => (.error cause, e)

/-- If a call comes next, the emulator that has arrived at it and not made it. -/
def atCall? (e : Emulator) : Option Emulator := do
  let word ← e.fetch
  let i ← Instruction.ofWord? word
  if i.opcode = .call then some (e.arrive word i) else none

/-! ## Runs -/

/-- Steps until the machine halts, but not more often than `limit`.  The answer
is the number of instructions carried out, when `done` came before. -/
def runOn (done : Nat) (e : Emulator) : Nat → Except Fault Nat × Emulator
  | 0 => (.ok done, e)
  | limit + 1 =>
    match e.step with
    | (.ok true, e) => runOn (done + 1) e limit
    | (.ok false, e) => (.ok done, e)
    | (.error cause, e) => (.error cause, e)

/-- Steps until the machine halts, but not more often than `limit`; the answer
is the number of instructions carried out. -/
def runFor (e : Emulator) (limit : Nat) : Except Fault Nat × Emulator := runOn 0 e limit

/-- The steps after which a run without a limit of its own is given up, as a function
has to come to an end where a program need not.  At a million steps a second that is
more than a hundred thousand years. -/
def patience : Nat := 0x4000000000000000

/-- Steps until the machine halts, or until a given number of instructions has
been carried out. -/
def run (e : Emulator) (limit : Option Int) : Except Fault Nat × Emulator :=
  match limit with
  | some n => e.runFor n.toNat
  | none => e.runFor patience

/-! ## Hooks -/

/-- Counts the timers down; to be called sixty times a second. -/
def tick (e : Emulator) : Emulator := e.withMachine (e.toMachine.onProcessor Processor.tick)

/-- Takes over a keypad on which a key may have moved, and reports it if it has. -/
def keyMoved (e : Emulator) (index : Int) (way : String) (moved : Bool × Keypad) : Emulator :=
  let e := { e with keypad := moved.2 }
  if moved.1 then e.note .debug fun _ => "Key 0x" ++ hex 0 index ++ way else e

/-- The key with a given number goes down. -/
def keyDown (e : Emulator) (index : Int) : Except Fault Emulator := do
  return e.keyMoved index " down" (← e.keypad.press index)

/-- The key with a given number goes up. -/
def keyUp (e : Emulator) (index : Int) : Except Fault Emulator := do
  return e.keyMoved index " up" (← e.keypad.release index)

/-- The emulator with a key in a given position, and the report that it was not
there already. -/
def moveKey (e : Emulator) (k : Key) (position : Bool) : Emulator :=
  e.keyMoved k.val (if position then " down" else " up") (e.keypad.move k position)

theorem keyDown_eq (e : Emulator) (index : Int) :
    e.keyDown index = do return e.moveKey (← Keypad.key index) true := by
  rw [keyDown, Keypad.press_eq]
  cases hkey : Keypad.key index with
  | error cause => rfl
  | ok k =>
    obtain rfl := Keypad.key_eq_ok_iff.1 hkey
    rfl

theorem keyUp_eq (e : Emulator) (index : Int) :
    e.keyUp index = do return e.moveKey (← Keypad.key index) false := by
  rw [keyUp, Keypad.release_eq]
  cases hkey : Keypad.key index with
  | error cause => rfl
  | ok k =>
    obtain rfl := Keypad.key_eq_ok_iff.1 hkey
    rfl

/-- The event of a key that there is is not refused. -/
theorem keyDown_val (e : Emulator) (k : Key) : e.keyDown k.val = .ok (e.moveKey k true) := by
  rw [keyDown_eq, Keypad.key_val]
  rfl

theorem keyUp_val (e : Emulator) (k : Key) : e.keyUp k.val = .ok (e.moveKey k false) := by
  rw [keyUp_eq, Keypad.key_val]
  rfl

end Emulator

end Chip8
