import Chip8.Proofs.Core

/-!
# Chip8.Proofs.Unseen

What an instruction does not look at can change before it is carried out or after that.  A
`Revision` changes timers, keys, the source of random numbers and the notes about the last
step, each from what it was.  `perform_revised` states that an instruction which has nothing to
do with the parts that are changed neither sees the revision nor stands in its way.
-/

namespace Chip8

/-- Whether an instruction reads or sets a timer. -/
def Opcode.usesTimers : Opcode → Bool
  | getDelay | setDelay | setSound => true
  | _ => false

/-- A change to the parts of a machine that few instructions have to do with. -/
structure Revision where
  delay : Int → Int := id
  sound : Int → Int := id
  keypad : Keypad → Keypad := id
  rng : Rng → Rng := id
  lastOp : Option Instruction → Option Instruction := id
  haltReason : Option HaltReason → Option HaltReason := id
  haltWord : Option Nat → Option Nat := id

/-- What an opcode has to do with stays as it is. -/
structure Revision.Spares (c : Revision) (op : Opcode) : Prop where
  timers : op.usesTimers = true → c.delay = id ∧ c.sound = id
  keys : op.looksAtKeys = true → c.keypad = id
  random : op = .random → c.rng = id

namespace Machine

/-- The machine after a change. -/
def revised (m : Machine) (c : Revision) : Machine :=
  { m with
    processor :=
      { m.processor with
        dt := c.delay m.processor.dt
        st := c.sound m.processor.st
        rng := c.rng m.processor.rng }
    keypad := c.keypad m.keypad
    lastOp := c.lastOp m.lastOp
    haltReason := c.haltReason m.haltReason
    haltWord := c.haltWord m.haltWord }

section Revised

variable (m : Machine) (c : Revision)

theorem drawAtIndex_revised (x y : Register) (n : Nibble) :
    (m.revised c).drawAtIndex x y n = (m.drawAtIndex x y n).map (·.revised c) := by
  obtain ⟨hit, screen, hdraw⟩ := m.screen.drawSprite_total (by decide) (m.reg x).toNat
    (m.reg y).toNat (m.rowsAtIndex n)
  rw [drawAtIndex_eq hdraw, drawAtIndex_eq (m := m.revised c) hdraw]
  rfl

end Revised

/-- An instruction does the same before a change that spares it as after. -/
theorem perform_revised (m : Machine) {c : Revision} {i : Instruction} (h : c.Spares i.opcode) :
    (m.revised c).perform i = (m.perform i).map (·.revised c) := by
  have hdrawn := m.drawAtIndex_revised c
  obtain ⟨op, o⟩ := i
  obtain ⟨htimers, hkeys, hrandom⟩ := h
  obtain ⟨delay, sound, keypad, rng, lastOp, haltReason, haltWord⟩ := c
  cases op
  case ret =>
    cases h : m.processor.stack.frames <;>
      simp only [perform, revised, Processor.ret, CallStack.pop, h] <;> rfl
  case call =>
    cases h : m.processor.stack.isFull <;>
      simp only [perform, revised, Processor.call, CallStack.push, h] <;> rfl
  case random =>
    obtain rfl : rng = id := hrandom rfl
    obtain ⟨x, kk⟩ := o
    simp only [perform, revised, Processor.random, id_eq]
    cases byte? (andBits m.processor.rng.next kk.toNat) <;> rfl
  case draw =>
    obtain ⟨x, y, n⟩ := o
    simp only [perform, hdrawn]
    cases m.drawAtIndex x y n <;> rfl
  case getDelay =>
    obtain ⟨rfl, rfl⟩ : delay = id ∧ sound = id := htimers rfl
    simp only [perform, revised, Processor.getDelay, id_eq]
    cases byte? m.processor.dt <;> rfl
  case setDelay | setSound =>
    obtain ⟨rfl, rfl⟩ : delay = id ∧ sound = id := htimers rfl
    rfl
  case skipKeyDown | skipKeyUp =>
    change Register at o
    obtain rfl : keypad = id := hkeys rfl
    simp only [perform, keyIsDown_eq]
    rfl
  case waitKey =>
    obtain rfl : keypad = id := hkeys rfl
    simp only [perform, revised, id_eq]
    cases m.keypad.firstDown <;> rfl
  case toBcd =>
    simp only [perform, bcdDigits_toNat, writeAll_eq]
    rfl
  case storeRegs =>
    change Register at o
    simp only [perform, dumpRegisters_eq]
    rfl
  case loadRegs =>
    change Register at o
    simp only [perform, restoreRegisters_eq]
    rfl
  all_goals rfl

end Machine

end Chip8
