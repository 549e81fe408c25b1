import Chip8.Proofs.Alignment

/-!
# Chip8.Proofs.Successor

Where the program goes on after an instruction.  `successor?` says it for every instruction, from
the state before: jumps and calls have a target, a return has the most recent address on the stack,
and everything else goes on from the program counter, by two steps instead of one where the
condition of a skip instruction holds (`skips`).  `successor_perform` is the case split.
-/

namespace Chip8

namespace Machine

/-- Whether the condition of a skip instruction holds.  Other instructions do not skip. -/
def skips (m : Machine) : Instruction → Bool
  | ⟨.skipEq, (x, kk)⟩ => m.reg x == kk
  | ⟨.skipNeq, (x, kk)⟩ => m.reg x != kk
  | ⟨.skipEqReg, (x, y)⟩ => m.reg x == m.reg y
  | ⟨.skipNeqReg, (x, y)⟩ => m.reg x != m.reg y
  | ⟨.skipKeyDown, (x : Register)⟩ => m.keypad.down[(m.reg x).toNat % 16]
  | ⟨.skipKeyUp, (x : Register)⟩ => !m.keypad.down[(m.reg x).toNat % 16]
  | _ => false

/-- The register V0, which a jump with an offset adds to its address. -/
def offsetRegister : Register := lowNibble 0

/-- The address at which the program goes on after an instruction.  A return has none if there is
no call to return from. -/
def successor? (m : Machine) : Instruction → Option Int
  | ⟨.jump, (a : Address)⟩ | ⟨.call, (a : Address)⟩ => some a.val
  | ⟨.jumpOffset, (a : Address)⟩ => some (wrap ((m.reg offsetRegister).toNat + a.val))
  | ⟨.ret, _⟩ => m.processor.stack.frames.head?.map fun a => wrap (a + 2)
  | i => some (wrap (m.processor.pc + if m.skips i then 4 else 2))

/-! ## kinds of instructions -/

/-- A skip instruction skips if its condition holds. -/
theorem perform_of_skip (m : Machine) {i : Instruction} (h : i.opcode.effect = .skip) :
    m.perform i = .ok (m.onProcessor (·.skipIf (m.skips i))) := by
  obtain ⟨op, o⟩ := i
  cases op
  case skipEq | skipNeq | skipEqReg | skipNeqReg =>
    obtain ⟨x, y⟩ := o
    rfl
  case skipKeyDown | skipKeyUp =>
    have hkey := m.keyIsDown_eq o
    simp only [perform, hkey]
    rfl
  all_goals contradiction

/-- What neither skips nor leads anywhere else goes on to the next instruction. -/
theorem pc_of_perform {m after : Machine} {i : Instruction} (h : m.perform i = .ok after)
    (hskip : i.opcode.effect ≠ .skip) (hjump : i.opcode.effect ≠ .jump)
    (hcall : i.opcode ≠ .call) (hret : i.opcode ≠ .ret) :
    after.processor.pc = wrap (m.processor.pc + 2) := by
  have hout := outcome_of_perform h
  generalize i.opcode = op at hout hskip hjump hcall hret
  cases hout
  case skip condition heffect => exact absurd heffect hskip
  case jump a heffect => exact absurd heffect hjump
  case call a hroom => exact absurd rfl hcall
  case ret a rest hframes => exact absurd rfl hret
  all_goals rfl

theorem wrap_address (a : Address) : wrap a.val = a.val := wrap_of_range ⟨by omega, by omega⟩

/-- An instruction that is carried out leads to its successor. -/
theorem successor_perform {m after : Machine} {i : Instruction} (h : m.perform i = .ok after) :
    m.successor? i = some after.processor.pc := by
  obtain ⟨op, o⟩ := i
  cases op
  case jump | call =>
    have hpc := (wrap_address o).symm.trans (pc_of_target h rfl).symm
    exact congrArg some hpc
  case jumpOffset =>
    rw [pc_of_target h rfl]
    rfl
  case ret =>
    cases outcome_of_perform h
    case ret a rest hframes =>
      simp only [successor?, hframes]
      rfl
    all_goals contradiction
  case skipEq | skipNeq | skipEqReg | skipNeqReg | skipKeyDown | skipKeyUp =>
    rw [m.perform_of_skip rfl] at h
    obtain rfl := Except.ok.inj h
    rfl
  all_goals
    rw [pc_of_perform h nofun nofun nofun nofun]
    rfl

/-- A call that is carried out saves its own address. -/
theorem frames_of_call {m after : Machine} {i : Instruction} (h : m.perform i = .ok after)
    (hcall : i.opcode = .call) :
    after.processor.stack.frames = m.processor.pc :: m.processor.stack.frames := by
  have hout := outcome_of_perform h
  rw [hcall] at hout
  cases hout
  case call a hroom => rfl
  all_goals contradiction

end Machine

namespace Emulator

open Machine

/-- **The program counter**: an item that is handed over and carried out is an instruction, and the
program counter then holds its successor, whatever the state before.  A call also puts the address
that it was made from on the stack. -/
theorem goes_on_at_successor {e after : Emulator} {item : Item}
    (h : e.execute item = (.ok true, after)) :
    ∃ i : Instruction, item = .operation i.toOperation ∧
      e.successor? i = some after.processor.pc ∧
      (i.opcode = .call →
        after.processor.stack.frames = e.processor.pc :: e.processor.stack.frames) := by
  obtain ⟨i, hi, hperform⟩ := perform_of_execute h
  exact ⟨i, hi, successor_perform hperform, frames_of_call hperform⟩

/-- An emulator whose program counter and whose only saved address are outside memory. -/
def straying : Emulator :=
  let m := Machine.blank 2 0 0x200 (Rng.cycle [])
  { toMachine :=
      { m with
        processor :=
          { m.processor with
            pc := -2, stack := { m.processor.stack with frames := [0xFFFFF] } } }
    log := .off }

/-- It makes a call, which saves the address outside memory as it is. -/
theorem goes_on_at_successor_straying :
    let call : Operation := { opcode := .call, nnn := 0x345 }
    ∃ after, straying.execute (.operation call) = (.ok true, after) ∧
      after.processor.pc = 0x345 ∧ after.processor.stack.frames = [-2, 0xFFFFF] := by
  intro call
  have hcheck : call.check = .ok ⟨.call, (0x345 : Address)⟩ := rfl
  have htrue : (straying.execute (.operation call)).1 = .ok true := by decide +kernel
  have hexecute : straying.execute (.operation call) =
      (.ok true, (straying.execute (.operation call)).2) := Prod.ext htrue rfl
  obtain ⟨i, hi, hpc, hframes⟩ := goes_on_at_successor hexecute
  rw [Operation.check_eq_ok_iff.2 (Item.operation.inj hi).symm] at hcheck
  obtain rfl := Except.ok.inj hcheck
  exact ⟨_, hexecute, (Option.some.inj hpc).symm, hframes rfl⟩

end Emulator

end Chip8
