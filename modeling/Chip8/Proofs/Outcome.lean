import Chip8.Proofs.Access

/-!
# Chip8.Proofs.Outcome

What carrying out one instruction can do to a machine, said once.  The opcodes
fall into a few kinds of effect, and `outcome_perform` gives for each of them the
machine that results, or why there is none.  What instructions keep, and when they
do not complete, follows by cases on the outcome.
-/

namespace Chip8

/-! ## kinds of effect -/

/-- The part of the machine that an opcode works on. -/
inductive Effect
  | skip
  | jump
  | call
  | ret
  | registers
  | random
  | index
  | delay
  | sound
  | memory
  | clear
  | draw
  deriving DecidableEq, Repr

/-- The part of the machine that an opcode works on. -/
def Opcode.effect : Opcode → Effect
  | clear => .clear
  | ret => .ret
  | jump | jumpOffset => .jump
  | call => .call
  | skipEq | skipNeq | skipEqReg | skipNeqReg | skipKeyDown | skipKeyUp => .skip
  | load | addImm | move | or | and | xor | addReg | subReg | shiftRight | subRegRev | shiftLeft
  | getDelay | waitKey | loadRegs => .registers
  | loadI | addToI | fontAddr => .index
  | random => .random
  | draw => .draw
  | setDelay => .delay
  | setSound => .sound
  | toBcd | storeRegs => .memory

/-- The results that an opcode may have: where it completes, what it leaves alone
is visible; where it does not, why. -/
inductive Outcome (m : Machine) : Opcode → Except Stop Machine → Prop
  | skip {op} (condition : Bool) (h : op.effect = .skip) :
      Outcome m op (.ok (m.onProcessor (·.skipIf condition)))
  | jump {op} (a : Int) (h : op.effect = .jump) : Outcome m op (.ok (m.onProcessor (·.jump a)))
  | call (a : Int) (h : m.processor.stack.isFull = false) :
      Outcome m .call (.ok (m.onProcessor fun p =>
        { p with stack := { p.stack with frames := p.pc :: p.stack.frames }, pc := wrap a }))
  | callRefused (h : m.processor.stack.isFull = true) :
      Outcome m .call (.error (.halt .stackOverflow))
  | ret (a : Int) (rest : List Int) (h : m.processor.stack.frames = a :: rest) :
      Outcome m .ret (.ok (m.onProcessor fun p =>
        { p with stack := { p.stack with frames := rest }, pc := wrap (a + 2) }))
  | retRefused (h : m.processor.stack.frames = []) :
      Outcome m .ret (.error (.halt .stackUnderflow))
  | registers {op} (v : Vector UInt8 16) (h : op.effect = .registers) :
      Outcome m op (.ok (m.onProcessor ({ · with v })).next)
  | delayRefused (h : byte? m.processor.dt = none) :
      Outcome m .getDelay (.error (.fault .registerValue))
  | random (v : Vector UInt8 16) :
      Outcome m .random
        (.ok (m.onProcessor fun p => { p with v, rng := p.rng.advance }).next)
  | index {op} (a : Int) (h : op.effect = .index) :
      Outcome m op (.ok (m.onProcessor (·.loadI a)).next)
  | delay (x : Register) : Outcome m .setDelay (.ok (m.onProcessor (·.setDelay x)).next)
  | sound (x : Register) : Outcome m .setSound (.ok (m.onProcessor (·.setSound x)).next)
  | memory {op} (bytes : Vector UInt8 0x1000) (h : op.effect = .memory) :
      Outcome m op (.ok (m.withBytes bytes).next)
  | clear : Outcome m .clear (.ok { m with screen := m.screen.clear }.next)
  | draw (screen : Screen 64 32) (v : Vector UInt8 16) :
      Outcome m .draw (.ok (Machine.onProcessor { m with screen } ({ · with v })).next)

namespace Machine

/-! ## one lemma per effect that checks something -/

theorem outcome_call (m : Machine) (a : Address) :
    Outcome m .call (m.perform ⟨.call, a⟩) := by
  cases h : m.processor.stack.isFull with
  | true =>
    rw [perform_call_of_isFull a h]
    exact .callRefused h
  | false =>
    rw [perform_call a h]
    exact .call a.val h

theorem outcome_ret (m : Machine) : Outcome m .ret (m.perform ⟨.ret, ()⟩) := by
  unfold perform Processor.ret CallStack.pop
  cases h : m.processor.stack.frames with
  | nil => exact .retRefused h
  | cons a rest => exact .ret a rest h

theorem outcome_getDelay (m : Machine) (x : Register) :
    Outcome m .getDelay (m.perform ⟨.getDelay, x⟩) := by
  unfold perform Processor.getDelay
  cases h : byte? m.processor.dt with
  | none => exact .delayRefused h
  | some b => exact .registers (m.processor.v.set x b) rfl

theorem outcome_random (m : Machine) (x : Register) (kk : UInt8) :
    Outcome m .random (m.perform ⟨.random, (x, kk)⟩) := by
  obtain ⟨b, hb⟩ := m.processor.random_ok x kk
  simp only [perform, hb]
  exact .random (m.processor.v.set x b)

/-- What is left of the machine by drawing the sprite that the index register points at. -/
theorem perform_draw {m : Machine} {x y : Register} {n : Nibble} {hit : Bool}
    {screen : Screen 64 32}
    (h : m.screen.drawSprite (m.reg x).toNat (m.reg y).toNat (m.rowsAtIndex n) =
      .ok (hit, screen)) :
    m.perform ⟨.draw, (x, y, n)⟩ =
      .ok { m with screen, processor := (m.processor.setFlag hit).next } := by
  simp only [perform, drawAtIndex_eq h]
  rfl

theorem outcome_draw (m : Machine) (x y : Register) (n : Nibble) :
    Outcome m .draw (m.perform ⟨.draw, (x, y, n)⟩) := by
  obtain ⟨hit, screen, hdraw⟩ := m.screen.drawSprite_total (by decide) (m.reg x).toNat
    (m.reg y).toNat (m.rowsAtIndex n)
  rw [perform_draw hdraw]
  exact .draw screen (m.processor.setFlag hit).v

theorem outcome_waitKey (m : Machine) (x : Register) :
    Outcome m .waitKey (m.perform ⟨.waitKey, x⟩) := by
  unfold perform
  cases m.keypad.firstDown with
  | none => exact .registers m.processor.v rfl
  | some k => exact .registers (m.processor.v.set x (lowByte k.val)) rfl

/-- An instruction that writes bytes to memory completes. -/
theorem outcome_writeAll (m : Machine) {op : Opcode} (a : Int) (bytes : List UInt8)
    (h : op.effect = .memory) :
    Outcome m op
      ((demand (m.writeAll a (bytes.map fun b => (b.toNat : Int)))).map next) := by
  rw [writeAll_eq]
  exact .memory _ h

/-! ## every instruction -/

/-- What an instruction does is one of the outcomes of its opcode. -/
theorem outcome_perform (m : Machine) (i : Instruction) : Outcome m i.opcode (m.perform i) := by
  obtain ⟨op, o⟩ := i
  cases op
  case clear => exact .clear
  case ret => exact m.outcome_ret
  case call => exact m.outcome_call o
  case jump => exact .jump _ rfl
  case jumpOffset =>
    exact .jump (m.processor.v[0].toNat + Fin.val (o : Address)) rfl
  case skipEq | skipNeq | skipEqReg | skipNeqReg =>
    obtain ⟨x, y⟩ := o
    exact .skip _ rfl
  case skipKeyDown | skipKeyUp =>
    have hkey := m.keyIsDown_eq o
    simp only [perform, hkey]
    exact .skip _ rfl
  case load | addImm | move | or | and | xor | addReg | subReg | subRegRev | shiftRight |
      shiftLeft =>
    obtain ⟨x, y⟩ := o
    exact .registers _ rfl
  case random =>
    obtain ⟨x, kk⟩ := o
    exact m.outcome_random x kk
  case draw =>
    obtain ⟨x, y, n⟩ := o
    exact m.outcome_draw x y n
  case getDelay => exact m.outcome_getDelay o
  case waitKey => exact m.outcome_waitKey o
  case setDelay => exact .delay o
  case setSound => exact .sound o
  case loadI | addToI | fontAddr => exact .index _ rfl
  case toBcd =>
    simp only [perform, bcdDigits_toNat]
    exact m.outcome_writeAll _ _ rfl
  case storeRegs => exact m.outcome_writeAll _ _ rfl
  case loadRegs =>
    have hrestored := m.restoreRegisters_eq o
    simp only [perform, hrestored]
    exact .registers _ rfl

theorem outcome_of_perform {m : Machine} {i : Instruction} {r : Except Stop Machine}
    (h : m.perform i = r) : Outcome m i.opcode r := h ▸ m.outcome_perform i

/-- Instructions halt the machine for want of a call to return from, or of room for
another one. -/
theorem of_perform_halt {m : Machine} {i : Instruction} {reason : HaltReason}
    (h : m.perform i = .error (.halt reason)) :
    (i.opcode = .ret ∧ m.processor.stack.frames = [] ∧ reason = .stackUnderflow) ∨
      (i.opcode = .call ∧ m.processor.stack.limit ≤ m.processor.stack.depth ∧
        reason = .stackOverflow) := by
  have hout := outcome_of_perform h
  generalize i.opcode = op at hout ⊢
  cases hout with
  | retRefused hframes => exact .inl ⟨rfl, hframes, rfl⟩
  | callRefused hfull => exact .inr ⟨rfl, of_decide_eq_true hfull, rfl⟩

/-! ## what no instruction touches -/

/-- What stays when an instruction is carried out: keys, where things go, how many
calls there may be, and the notes about the last step. -/
structure Kept (m after : Machine) : Prop where
  keypad : after.keypad = m.keypad
  fontLocation : after.fontLocation = m.fontLocation
  fontPlace : after.memory.fontLocation = m.memory.fontLocation
  programStart : after.programStart = m.programStart
  stackLimit : after.processor.stack.limit = m.processor.stack.limit
  lastOp : after.lastOp = m.lastOp
  haltReason : after.haltReason = m.haltReason
  haltWord : after.haltWord = m.haltWord

theorem kept_of_perform {m after : Machine} {i : Instruction} (h : m.perform i = .ok after) :
    Kept m after := by
  have hout := outcome_of_perform h
  generalize i.opcode = op at hout
  cases hout <;> constructor <;> rfl

end Machine

end Chip8
