import Chip8.Proofs.Arithmetic
import Chip8.Proofs.Transfer

/-!
# Chip8.Proofs.Footprint

What an instruction may change.  `Instruction.targets` and `Instruction.bytesStored` list the
registers and the number of bytes from the index register on; for the other parts of the machine the
opcode decides.  `TouchesOnly` says that everything else is as it was, and `touchesOnly_perform` that
this holds of every instruction that is carried out.

The parts for which the opcode decides are read off the outcomes of instructions.  These do not tell
one register or one byte from another, so for registers (`reg_perform`) and memory (`load_perform`)
the instructions that write there are looked at one by one.
-/

namespace Chip8

/-- Three opcodes work on the index register. -/
theorem Opcode.effect_ne_index {op : Opcode}
    (hop : op ≠ .loadI ∧ op ≠ .addToI ∧ op ≠ .fontAddr) : op.effect ≠ .index := by
  cases op <;> simp [effect] at hop ⊢

namespace Instruction

/-- The registers that an instruction may change. -/
def targets : Instruction → List Register
  | ⟨.load, (x, _)⟩ | ⟨.addImm, (x, _)⟩ | ⟨.move, (x, _)⟩ | ⟨.or, (x, _)⟩ | ⟨.and, (x, _)⟩
  | ⟨.xor, (x, _)⟩ | ⟨.random, (x, _)⟩ | ⟨.getDelay, (x : Register)⟩
  | ⟨.waitKey, (x : Register)⟩ => [x]
  | ⟨.addReg, (x, _)⟩ | ⟨.subReg, (x, _)⟩ | ⟨.subRegRev, (x, _)⟩ | ⟨.shiftRight, (x, _)⟩
  | ⟨.shiftLeft, (x, _)⟩ => [x, Processor.flagRegister]
  | ⟨.draw, _⟩ => [Processor.flagRegister]
  | ⟨.loadRegs, (x : Register)⟩ => (List.finRange 16).filter (· ≤ x)
  | _ => []

/-- How many bytes from the index register on an instruction may change. -/
def bytesStored : Instruction → Nat
  | ⟨.toBcd, _⟩ => 3
  | ⟨.storeRegs, (x : Register)⟩ => x.val + 1
  | _ => 0

end Instruction

namespace Machine

/-- What an instruction has changed is what it may change. -/
structure TouchesOnly (m : Machine) (i : Instruction) (after : Machine) : Prop where
  memory (a : Int) (ha : ∀ k < i.bytesStored, wrap (m.processor.i + (k : Nat)) ≠ a) :
    after.memory.load a = m.memory.load a
  registers (k : Register) (hk : k ∉ i.targets) : after.reg k = m.reg k
  screen (h : i.opcode ≠ .clear ∧ i.opcode ≠ .draw) : after.screen = m.screen
  index (h : i.opcode ≠ .loadI ∧ i.opcode ≠ .addToI ∧ i.opcode ≠ .fontAddr) :
    after.processor.i = m.processor.i
  delay (h : i.opcode ≠ .setDelay) : after.processor.dt = m.processor.dt
  sound (h : i.opcode ≠ .setSound) : after.processor.st = m.processor.st
  stack (h : i.opcode ≠ .call ∧ i.opcode ≠ .ret) : after.processor.stack = m.processor.stack
  random : after.processor.rng =
    if i.opcode = .random then m.processor.rng.advance else m.processor.rng
  kept : Kept m after

section Perform

variable {m after : Machine} {i : Instruction} (h : m.perform i = .ok after)
include h

/-! ## parts for which the opcode decides -/

theorem screen_perform (hop : i.opcode ≠ .clear ∧ i.opcode ≠ .draw) :
    after.screen = m.screen := by
  have hout := outcome_of_perform h
  generalize i.opcode = op at hout hop
  cases hout
  case clear => exact absurd rfl hop.1
  case draw => exact absurd rfl hop.2
  all_goals rfl

theorem index_perform (hop : i.opcode.effect ≠ .index) : after.processor.i = m.processor.i := by
  have hout := outcome_of_perform h
  generalize i.opcode = op at hout hop
  cases hout
  case index a heffect => exact absurd heffect hop
  all_goals rfl

theorem delay_perform (hop : i.opcode ≠ .setDelay) : after.processor.dt = m.processor.dt := by
  have hout := outcome_of_perform h
  generalize i.opcode = op at hout hop
  cases hout
  case delay x => exact absurd rfl hop
  all_goals rfl

theorem sound_perform (hop : i.opcode ≠ .setSound) : after.processor.st = m.processor.st := by
  have hout := outcome_of_perform h
  generalize i.opcode = op at hout hop
  cases hout
  case sound x => exact absurd rfl hop
  all_goals rfl

theorem stack_perform (hop : i.opcode ≠ .call ∧ i.opcode ≠ .ret) :
    after.processor.stack = m.processor.stack := by
  have hout := outcome_of_perform h
  generalize i.opcode = op at hout hop
  cases hout
  case call a hroom => exact absurd rfl hop.1
  case ret a rest hframes => exact absurd rfl hop.2
  all_goals rfl

/-- One random number is drawn, or none. -/
theorem rng_perform : after.processor.rng =
    if i.opcode = .random then m.processor.rng.advance else m.processor.rng := by
  have hout := outcome_of_perform h
  generalize i.opcode = op at hout
  cases hout
  case skip condition heffect | jump a heffect | registers v heffect | index a heffect |
      memory bytes heffect =>
    have hop : op ≠ .random := fun hop => by simp [hop, Opcode.effect] at heffect
    rw [if_neg hop]
    rfl
  all_goals rfl

/-! ## registers -/

/-- Opcodes that do not work on registers leave all of them alone. -/
theorem v_perform (hop : i.opcode.effect ≠ .registers ∧ i.opcode ≠ .random ∧ i.opcode ≠ .draw) :
    after.processor.v = m.processor.v := by
  have hout := outcome_of_perform h
  generalize i.opcode = op at hout hop
  cases hout
  case registers v heffect => exact absurd heffect hop.1
  case random v => exact absurd rfl hop.2.1
  case draw screen v => exact absurd rfl hop.2.2
  all_goals rfl

/-- An instruction leaves alone the registers that are not its targets. -/
theorem reg_perform {k : Register} (hk : k ∉ i.targets) : after.reg k = m.reg k := by
  obtain ⟨op, o⟩ := i
  cases op
  case load | addImm | move | or | and | xor =>
    obtain ⟨x, y⟩ := o
    obtain rfl := Except.ok.inj h
    exact m.processor.v_setV_of_ne _ (List.ne_of_not_mem_cons hk)
  case addReg | subReg | subRegRev | shiftRight | shiftLeft =>
    obtain ⟨x, y⟩ := o
    obtain rfl := Except.ok.inj h
    exact m.processor.v_setFlag_of_not_mem _ hk
  case random =>
    obtain ⟨x, kk⟩ := o
    obtain ⟨b, hdrawn⟩ := m.processor.random_ok x kk
    simp only [perform, hdrawn] at h
    obtain rfl := Except.ok.inj h
    exact Processor.v_setV_of_ne _ b (List.ne_of_not_mem_cons hk)
  case draw =>
    obtain ⟨x, y, n⟩ := o
    obtain ⟨hit, screen, hdrawn⟩ := m.screen.drawSprite_total (by decide) (m.reg x).toNat
      (m.reg y).toNat (m.rowsAtIndex n)
    rw [perform_draw hdrawn] at h
    obtain rfl := Except.ok.inj h
    exact m.processor.v_setV_of_ne _ (List.ne_of_not_mem_cons hk)
  case getDelay =>
    simp only [perform, Processor.getDelay] at h
    cases hb : byte? m.processor.dt with
    | none => simp [hb, demand, Except.mapError, Except.map] at h
    | some b =>
      simp only [hb] at h
      obtain rfl := Except.ok.inj h
      exact m.processor.v_setV_of_ne b (List.ne_of_not_mem_cons hk)
  case waitKey =>
    simp only [perform] at h
    cases hkey : m.keypad.firstDown with
    | none =>
      rw [hkey] at h
      obtain rfl := Except.ok.inj h
      rfl
    | some key =>
      rw [hkey] at h
      obtain rfl := Except.ok.inj h
      exact m.processor.v_setV_of_ne _ (List.ne_of_not_mem_cons hk)
  case loadRegs =>
    change Register at o
    obtain ⟨restored, hperform, hrestored⟩ := m.exists_restored o
    obtain rfl := Except.ok.inj (hperform.symm.trans h)
    exact hrestored.others k (by simpa [Instruction.targets] using hk)
  -- The others do not work on registers at all.
  all_goals exact congrArg (·.get k) (v_perform h (by simp [Opcode.effect]))

/-! ## memory -/

theorem memory_perform (hop : i.opcode.effect ≠ .memory) : after.memory = m.memory := by
  have hout := outcome_of_perform h
  generalize i.opcode = op at hout hop
  cases hout
  case memory bytes heffect => exact absurd heffect hop
  all_goals rfl

/-- An instruction leaves alone the bytes at addresses to which it does not write. -/
theorem load_perform {a : Int}
    (ha : ∀ k < i.bytesStored, wrap (m.processor.i + (k : Nat)) ≠ a) :
    after.memory.load a = m.memory.load a := by
  obtain ⟨op, o⟩ := i
  cases op
  case toBcd =>
    obtain ⟨stored, hperform, hstored⟩ := m.exists_stored_toBcd o
    obtain rfl := Except.ok.inj (hperform.symm.trans h)
    exact hstored.outside a ha
  case storeRegs =>
    change Register at o
    obtain ⟨stored, hperform, hstored⟩ := m.exists_stored_storeRegs o
    obtain rfl := Except.ok.inj (hperform.symm.trans h)
    refine hstored.outside a ?_
    rw [length_registersUpTo]
    exact ha
  all_goals rw [memory_perform h (by simp [Opcode.effect])]

/-- An instruction that is carried out has changed what it may change, and nothing else. -/
theorem touchesOnly_perform : TouchesOnly m i after where
  memory _ ha := load_perform h ha
  registers _ hk := reg_perform h hk
  screen := screen_perform h
  index hop := index_perform h (Opcode.effect_ne_index hop)
  delay := delay_perform h
  sound := sound_perform h
  stack := stack_perform h
  random := rng_perform h
  kept := kept_of_perform h

end Perform

end Machine

namespace Emulator

open Machine

/-- **Footprint**: an item that is handed over and carried out is an instruction, and it has changed
what that instruction may change, and nothing else: memory at most at the addresses to which it
writes, registers at most where they are its targets, screen, index register, timers and call stack
only if its opcode works on them.  One random number has been drawn if it is asked for one, and none
otherwise. -/
theorem touches_only {e after : Emulator} {item : Item}
    (h : e.execute item = (.ok true, after)) :
    ∃ i : Instruction, item = .operation i.toOperation ∧
      TouchesOnly e.toMachine i after.toMachine := by
  obtain ⟨i, hi, hperform⟩ := perform_of_execute h
  exact ⟨i, hi, touchesOnly_perform hperform⟩

/-- An emulator whose index register is just below memory. -/
def pointingBelow : Emulator :=
  let m := Machine.blank 0 0 0x200 (Rng.cycle [])
  { toMachine :=
      { m with processor := { m.processor with v := .replicate 16 0xFF, i := -1 } }
    log := .off }

/-- The digits of a register go to the last byte of memory and to the first two. -/
theorem touches_only_pointingBelow :
    let digits : Operation := { opcode := .toBcd, x := 0xF }
    ∃ after, pointingBelow.execute (.operation digits) = (.ok true, after) ∧
      after.processor.i = -1 ∧ (∀ k, after.reg k = pointingBelow.reg k) ∧
      ∀ a, 2 ≤ a ∧ a < 0xFFF → after.memory.load a = pointingBelow.memory.load a := by
  intro digits
  have hcheck : digits.check = .ok ⟨.toBcd, (0xF : Register)⟩ := rfl
  have htrue : (pointingBelow.execute (.operation digits)).1 = .ok true := by decide +kernel
  have hexecute : pointingBelow.execute (.operation digits) =
      (.ok true, (pointingBelow.execute (.operation digits)).2) := Prod.ext htrue rfl
  obtain ⟨i, hi, htouches⟩ := touches_only hexecute
  rw [Operation.check_eq_ok_iff.2 (Item.operation.inj hi).symm] at hcheck
  obtain rfl := Except.ok.inj hcheck
  refine ⟨_, hexecute, htouches.index ⟨nofun, nofun, nofun⟩, ?_, ?_⟩
  · exact fun k => htouches.registers k List.not_mem_nil
  · intro a ha
    refine htouches.memory a fun k hk => ?_
    match k, hk with
    | 0, _ | 1, _ | 2, _ =>
      change (_ : Int) % 0x1000 ≠ a
      simp only [pointingBelow]
      omega

end Emulator

end Chip8
