import Chip8.Machine
import Chip8.Operation.Check

/-!
# Chip8.Machine.Perform

The effect of one instruction on the machine.

Program counter rules: jumps, calls and returns set it themselves, skip
instructions advance it by two or four, and everything else by exactly two once
its work is done.  A call that has no room on the stack and a return that has
nothing to go back to stop the machine and change nothing.
-/

namespace Chip8

/-- Why an instruction is not carried out: the machine halts, or the machine was
given a state from outside that the instruction cannot work with. -/
inductive Stop
  | halt (reason : HaltReason)
  | fault (cause : Fault)
  deriving DecidableEq, Repr

/-- The hundreds, tens and ones of a number. -/
def bcdDigits (n : Int) : List Int := [n / 100, n / 10 % 10, n % 10]

namespace Machine

/-! ## Memory through addresses that wrap -/

/-- The byte at an address, of which the lowest twelve bits count. -/
def read (m : Machine) (a : Int) : Except Fault UInt8 := m.memory.load (wrap a)

/-- Puts a number at an address, of which the lowest twelve bits count. -/
def write (m : Machine) (a value : Int) : Except Fault Machine := do
  let memory ← m.memory.store (wrap a) value
  return { m with memory }

/-- Puts numbers at an address and those after it, one after the other. -/
def writeAll (m : Machine) (a : Int) : List Int → Except Fault Machine
  | [] => .ok m
  | n :: rest => do
    let m ← m.write a n
    m.writeAll (a + 1) rest

/-! ## Instructions -/

/-- Changes the processor. -/
def onProcessor (m : Machine) (f : Processor → Processor) : Machine :=
  { m with processor := f m.processor }

/-- Goes on to the next instruction. -/
def next (m : Machine) : Machine := m.onProcessor Processor.next

/-- The content of a register. -/
def reg (m : Machine) (x : Register) : UInt8 := m.processor.v.get x

/-- The sprite of `n` rows that the index register points at. -/
def sprite (m : Machine) (n : Nibble) : Except Fault (List UInt8) :=
  (List.range n.val).mapM fun (r : Nat) => m.read (m.processor.i + r)

/-- Draws the sprite of `n` rows that the index register points at. -/
def drawAtIndex (m : Machine) (x y : Register) (n : Nibble) : Except Fault Machine := do
  let rows ← m.sprite n
  let (hit, screen) ← m.screen.drawSprite (m.reg x).toNat (m.reg y).toNat rows
  return { m with screen, processor := m.processor.setFlag hit }

/-- Copies V0 to Vx to where the index register points. -/
def dumpRegisters (m : Machine) (x : Register) : Except Fault Machine :=
  m.writeAll m.processor.i ((m.processor.v.toList.take (x.val + 1)).map fun b => (b.toNat : Int))

/-- Copies registers from where the index register points, one after the
other. -/
def restoreEach (m : Machine) : List Register → Except Fault Machine
  | [] => .ok m
  | k :: rest => do
    let b ← m.read (m.processor.i + k.val)
    (m.onProcessor (·.setV k b)).restoreEach rest

/-- Copies V0 to Vx from where the index register points. -/
def restoreRegisters (m : Machine) (x : Register) : Except Fault Machine :=
  m.restoreEach ((List.finRange 16).take (x.val + 1))

/-- Whether the key is down whose number is in the lowest four bits of a
register. -/
def keyIsDown (m : Machine) (x : Register) : Except Fault Bool :=
  m.keypad.isDown ((m.reg x).toNat % 16 : Nat)

/-- The result of a part of an instruction, which is not carried out if that
part is refused. -/
def demand {α : Type} (r : Except Fault α) : Except Stop α := r.mapError .fault

/-- The effect of an instruction. -/
def perform (m : Machine) : Instruction → Except Stop Machine
  | ⟨.clear, _⟩ => .ok { m with screen := m.screen.clear }.next
  | ⟨.ret, _⟩ =>
    match m.processor.ret with
    | some p => .ok { m with processor := p }
    | none => .error (.halt .stackUnderflow)
  | ⟨.jump, (a : Address)⟩ => .ok (m.onProcessor (·.jump a.val))
  | ⟨.call, (a : Address)⟩ =>
    if m.processor.stack.isFull then .error (.halt .stackOverflow)
    else (demand (m.processor.call a.val)).map fun processor => { m with processor }
  | ⟨.skipEq, (x, kk)⟩ => .ok (m.onProcessor (·.skipIf (m.reg x == kk)))
  | ⟨.skipNeq, (x, kk)⟩ => .ok (m.onProcessor (·.skipIf (m.reg x != kk)))
  | ⟨.skipEqReg, (x, y)⟩ => .ok (m.onProcessor (·.skipIf (m.reg x == m.reg y)))
  | ⟨.skipNeqReg, (x, y)⟩ => .ok (m.onProcessor (·.skipIf (m.reg x != m.reg y)))
  | ⟨.load, (x, kk)⟩ => .ok (m.onProcessor (·.load x kk.toNat)).next
  | ⟨.addImm, (x, kk)⟩ => .ok (m.onProcessor (·.addImm x kk.toNat)).next
  | ⟨.move, (x, y)⟩ => .ok (m.onProcessor (·.move x y)).next
  | ⟨.or, (x, y)⟩ => .ok (m.onProcessor (·.or x y)).next
  | ⟨.and, (x, y)⟩ => .ok (m.onProcessor (·.and x y)).next
  | ⟨.xor, (x, y)⟩ => .ok (m.onProcessor (·.xor x y)).next
  | ⟨.addReg, (x, y)⟩ => .ok (m.onProcessor (·.addReg x y)).next
  | ⟨.subReg, (x, y)⟩ => .ok (m.onProcessor (·.subReg x y)).next
  | ⟨.subRegRev, (x, y)⟩ => .ok (m.onProcessor (·.subRegRev x y)).next
  | ⟨.shiftRight, (x, _)⟩ => .ok (m.onProcessor (·.shiftRight x)).next
  | ⟨.shiftLeft, (x, _)⟩ => .ok (m.onProcessor (·.shiftLeft x)).next
  | ⟨.loadI, (a : Address)⟩ => .ok (m.onProcessor (·.loadI a.val)).next
  | ⟨.jumpOffset, (a : Address)⟩ => .ok (m.onProcessor (·.jumpOffset a.val))
  | ⟨.random, (x, kk)⟩ =>
    match m.processor.random x kk.toNat with
    | (.ok (), p) => .ok { m with processor := p }.next
    | (.error e, _) => .error (.fault e)
  | ⟨.draw, (x, y, n)⟩ => (demand (m.drawAtIndex x y n)).map next
  | ⟨.skipKeyDown, (x : Register)⟩ =>
    (demand (m.keyIsDown x)).map fun down => m.onProcessor (·.skipIf down)
  | ⟨.skipKeyUp, (x : Register)⟩ =>
    (demand (m.keyIsDown x)).map fun down => m.onProcessor (·.skipIf !down)
  | ⟨.getDelay, (x : Register)⟩ =>
    (demand (m.processor.getDelay x)).map fun processor => { m with processor }.next
  | ⟨.waitKey, (x : Register)⟩ =>
    match m.keypad.firstDown with
    | some k => .ok (m.onProcessor (·.load x k.val)).next
    | none => .ok m.next
  | ⟨.setDelay, (x : Register)⟩ => .ok (m.onProcessor (·.setDelay x)).next
  | ⟨.setSound, (x : Register)⟩ => .ok (m.onProcessor (·.setSound x)).next
  | ⟨.addToI, (x : Register)⟩ => .ok (m.onProcessor (·.addToI x)).next
  | ⟨.fontAddr, (x : Register)⟩ =>
    .ok (m.onProcessor (·.loadI (m.memory.glyphAddress ((m.reg x).toNat % 16 : Nat)))).next
  | ⟨.toBcd, (x : Register)⟩ =>
    (demand (m.writeAll m.processor.i (bcdDigits (m.reg x).toNat))).map next
  | ⟨.storeRegs, (x : Register)⟩ => (demand (m.dumpRegisters x)).map next
  | ⟨.loadRegs, (x : Register)⟩ => (demand (m.restoreRegisters x)).map next

/-- A call is made where there is room on the stack, and then the stack does not
refuse it. -/
theorem perform_call {m : Machine} (target : Address) (h : m.processor.stack.isFull = false) :
    m.perform ⟨.call, target⟩ =
      .ok (m.onProcessor fun p =>
        { p with
          stack := { p.stack with frames := p.pc :: p.stack.frames }
          pc := wrap target.val }) := by
  simp only [perform, h, Processor.call_of_room h]
  rfl

theorem perform_call_of_isFull {m : Machine} (target : Address)
    (h : m.processor.stack.isFull = true) :
    m.perform ⟨.call, target⟩ = .error (.halt .stackOverflow) := by
  simp only [perform, h, if_true]

end Machine

end Chip8
