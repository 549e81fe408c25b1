import Chip8.Proofs.Halting
import Chip8.Proofs.NoFault
import Chip8.Proofs.Programs
import Chip8.Proofs.Unseen

/-!
# Chip8.Proofs.Direct

An instruction does the same whether the machine comes across its word or is handed the
operation.  The two ways meet in `Machine.perform`; they differ in the notes about the last
step, which a step has written before the instruction is carried out and which it completes
afterwards.  `perform_withNotes` states that instructions neither see nor change these notes,
`step_of_perform_ok` and `step_of_perform_halt` what a step therefore comes to, and
`fetch_of_bytes` that a word in two bytes of memory is the one that a step comes across.
-/

namespace Chip8

namespace Machine

/-! ## notes -/

/-- The machine with other notes about what it last did. -/
def withNotes (m : Machine) (op : Option Instruction) (reason : Option HaltReason)
    (word : Option Nat) : Machine :=
  { m with lastOp := op, haltReason := reason, haltWord := word }

/-- Instructions neither see the notes nor change them. -/
theorem perform_withNotes (m : Machine) (op : Option Instruction) (reason : Option HaltReason)
    (word : Option Nat) (i : Instruction) :
    (m.withNotes op reason word).perform i =
      (m.perform i).map (·.withNotes op reason word) := by
  let noted : Revision :=
    { lastOp := fun _ => op, haltReason := fun _ => reason, haltWord := fun _ => word }
  have hspares : noted.Spares i.opcode := ⟨fun _ => ⟨rfl, rfl⟩, fun _ => rfl, fun _ => rfl⟩
  exact m.perform_revised hspares

/-- Noting an instruction does not change what instructions do. -/
theorem perform_found (m : Machine) (j i : Instruction) :
    (m.found j).perform i = (m.perform i).map (·.found j) := by
  have hnotes := m.perform_withNotes (some j) m.haltReason m.haltWord i
  cases h : m.perform i with
  | error stop =>
      rw [h] at hnotes
      exact hnotes
  | ok after =>
      have hkept := kept_of_perform h
      have hsame : after.withNotes (some j) m.haltReason m.haltWord = after.found j := by
        rw [← hkept.haltReason, ← hkept.haltWord]
        rfl
      rw [h] at hnotes
      exact hnotes.trans (congrArg Except.ok hsame)

/-! ## words in memory -/

/-- The addresses within memory can be read, and no others; what is read is the byte there. -/
theorem load_eq_ok_iff {m : Machine} {a : Int} {b : UInt8} :
    m.memory.load a = .ok b ↔ (0 ≤ a ∧ a ≤ 0xFFF) ∧ m.peek a = b := by
  by_cases hrange : 0 ≤ a ∧ a ≤ 0xFFF
  · have hread : m.memory.load a = .ok (m.peek a) := by
      have hread := m.read_eq a
      rwa [read, wrap_of_range hrange] at hread
    rw [hread, Except.ok.injEq]
    exact (and_iff_right hrange).symm
  · have hplace : ¬(0 ≤ a ∧ a < (0x1000 : Nat)) := by omega
    have hrefused : m.memory.load a = .error (.outsideMemory a) := by
      rw [Memory.load, Memory.locate, dif_neg hplace]
      rfl
    simp only [hrefused, hrange, reduceCtorEq, false_and]

/-- A word whose bytes are at the program counter, high byte first, is fetched. -/
theorem fetch_of_bytes {m : Machine} {w : Nat} (hw : w < 0x10000)
    (hhigh : m.memory.load m.processor.pc = .ok (UInt8.ofNat (w / 0x100)))
    (hlow : m.memory.load (m.processor.pc + 1) = .ok (UInt8.ofNat w)) :
    m.fetch = some w := by
  obtain ⟨hpc, hpeek_high⟩ := load_eq_ok_iff.1 hhigh
  obtain ⟨hpc_next, hpeek_low⟩ := load_eq_ok_iff.1 hlow
  have hroom : m.HasRoom := ⟨hpc.1, by omega⟩
  rw [fetch_of_room hroom, wordHere, hpeek_high, hpeek_low, joinBytes_splitWord hw]

/-! ## a step against the instruction alone -/

/-- The instruction that comes next, if the word at the program counter is one. -/
def upcoming (m : Machine) : Option Instruction := m.fetch.bind Instruction.ofWord?

theorem upcoming_of_fetch {m : Machine} {word : Nat} {i : Instruction}
    (hword : m.fetch = some word) (hi : Instruction.ofWord? word = some i) :
    m.upcoming = some i := by
  rw [upcoming, hword, Option.bind_some, hi]

/-- The instruction that comes next is the one whose word is fetched. -/
theorem upcoming_eq_some_iff {m : Machine} {i : Instruction} :
    m.upcoming = some i ↔ m.fetch = some i.toWord := by
  unfold upcoming
  constructor
  · intro h
    obtain ⟨word, hword, hi⟩ := Option.bind_eq_some_iff.1 h
    rw [hword, Instruction.toWord_of_ofWord? hi]
  · intro h
    rw [h]
    exact Instruction.ofWord?_toWord i

/-- A step that goes on leaves what its instruction leaves, with the instruction noted and no
halt. -/
theorem step_of_perform_ok {m after : Machine} {i : Instruction} (hi : m.upcoming = some i)
    (h : m.perform i = .ok after) : m.step = (.ok true, after.withNotes (some i) none none) := by
  have hfound := m.perform_found i i
  rw [h] at hfound
  simp only [step, upcoming_eq_some_iff.1 hi, Instruction.ofWord?_toWord, hfound]
  rfl

/-- A step that meets an instruction that halts the machine notes the instruction, the reason
and the word. -/
theorem step_of_perform_halt {m : Machine} {i : Instruction} {reason : HaltReason}
    (hi : m.upcoming = some i) (h : m.perform i = .error (.halt reason)) :
    m.step = (.ok false, m.withNotes (some i) (some reason) (some i.toWord)) := by
  have hfound := m.perform_found i i
  rw [h] at hfound
  simp only [step, upcoming_eq_some_iff.1 hi, Instruction.ofWord?_toWord, hfound]
  rfl

end Machine

namespace Emulator

open Machine

/-- An instruction that is handed over as an operation is carried out. -/
theorem execute_toOperation (e : Emulator) (i : Instruction) :
    e.execute (.operation i.toOperation) = e.carryOut i := by
  have hcheck := Operation.check_toOperation i
  simp only [execute, Item.check, hcheck]

theorem execute_of_perform {e : Emulator} {i : Instruction} {after : Machine}
    (h : e.toMachine.perform i = .ok after) :
    e.execute (.operation i.toOperation) = (.ok true, e.withMachine after) :=
  (e.execute_toOperation i).trans (carryOut_of_ok h)

/-- What is carried out when it is handed over is an instruction, written as an operation. -/
theorem perform_of_execute {e after : Emulator} {item : Item}
    (h : e.execute item = (.ok true, after)) :
    ∃ i, item = .ofInstruction i ∧ e.toMachine.perform i = .ok after.toMachine := by
  unfold execute at h
  cases hcheck : item.check with
  | error cause => simp [hcheck] at h
  | ok i =>
      refine ⟨i, Item.check_eq_ok_iff.1 hcheck, ?_⟩
      simp only [hcheck] at h
      cases hperform : e.toMachine.perform i with
      | ok m =>
          rw [carryOut_of_ok hperform] at h
          obtain ⟨-, rfl⟩ := Prod.mk.inj h
          rfl
      | error stop =>
          cases stop with
          | halt reason =>
              have hhalt := (carryOut_of_halt hperform).1
              simp [h] at hhalt
          | fault cause => simp [carryOut_of_fault hperform] at h

/-- **Fetched or handed over**: where the delay timer holds a byte and the word of an operation
is in the two bytes at the program counter, a step and the operation on its own have the same
answer and leave the same machine, up to the notes.  The step notes the operation; it deletes
the notes of a halt if it goes on, and adds the word to them if it does not. -/
theorem fetched_like_handed_over {e : Emulator} {o : Operation} {w : Nat}
    (hdelay : e.processor.DelayIsByte) (hword : o.toWord = .ok w)
    (hhigh : e.memory.load e.processor.pc = .ok (UInt8.ofNat (w / 0x100)))
    (hlow : e.memory.load (e.processor.pc + 1) = .ok (UInt8.ofNat w)) :
    ∃ i goesOn stepped executed, i.toOperation = o ∧ e.step = (.ok goesOn, stepped) ∧
      e.execute (.operation o) = (.ok goesOn, executed) ∧
      stepped.toMachine = executed.toMachine.withNotes (some i)
        (if goesOn then none else executed.haltReason) (if goesOn then none else some w) := by
  obtain ⟨i, rfl, rfl⟩ := Operation.toWord_eq_ok_iff.1 hword
  have hi : e.upcoming = some i := upcoming_eq_some_iff.2 (fetch_of_bytes i.toWord_lt hhigh hlow)
  rw [execute_toOperation]
  cases h : e.toMachine.perform i with
  | ok after =>
      obtain ⟨stepped, hstep, hmachine⟩ := exists_step (step_of_perform_ok hi h)
      exact ⟨i, true, stepped, _, rfl, hstep, carryOut_of_ok h, hmachine⟩
  | error stop =>
      cases stop with
      | halt reason =>
          obtain ⟨hfalse, hexecuted⟩ := carryOut_of_halt h
          obtain ⟨stepped, hstep, hstepped⟩ := exists_step (step_of_perform_halt hi h)
          refine ⟨i, false, stepped, (e.carryOut i).2, rfl, hstep, Prod.ext hfalse rfl, ?_⟩
          rw [hstepped, hexecuted]
          rfl
      | fault cause => exact absurd h (perform_ne_fault hdelay i cause)

/-- An emulator at the last word of memory, which is there to write all registers over itself
and over the start of memory. -/
def overwriting : Emulator :=
  let m := Machine.blank 0 0 0x200 (Rng.cycle [])
  { toMachine :=
      { m with
        memory := ⟨(Vector.replicate 0x1000 0xFF).set 0xFFF 0x55, 0⟩
        processor := { m.processor with pc := 0xFFE, i := 0xFFE, dt := 0xFF } }
    log := .off }

theorem fetched_like_handed_over_overwriting :
    let o : Operation := { opcode := .storeRegs, x := 15 }
    overwriting.processor.DelayIsByte ∧ o.toWord = .ok 0xFF55 ∧
      overwriting.memory.load overwriting.processor.pc = .ok (UInt8.ofNat (0xFF55 / 0x100)) ∧
      overwriting.memory.load (overwriting.processor.pc + 1) = .ok (UInt8.ofNat 0xFF55) ∧
      ∃ i stepped executed, i.toOperation = o ∧ overwriting.step = (.ok true, stepped) ∧
        overwriting.execute (.operation o) = (.ok true, executed) ∧
        stepped.toMachine = executed.toMachine.withNotes (some i) none none := by
  intro o
  have hdelay : overwriting.processor.DelayIsByte := by decide
  have hword : o.toWord = .ok 0xFF55 := rfl
  have hhigh : overwriting.memory.load overwriting.processor.pc =
      .ok (UInt8.ofNat (0xFF55 / 0x100)) :=
    load_eq_ok_iff.2 ⟨by decide, by decide +kernel⟩
  have hlow : overwriting.memory.load (overwriting.processor.pc + 1) = .ok (UInt8.ofNat 0xFF55) :=
    load_eq_ok_iff.2 ⟨by decide, by decide +kernel⟩
  have htrue : overwriting.step.1.toOption = some true := by decide +kernel
  obtain ⟨i, goesOn, stepped, executed, hi, hstep, hexecute, hsame⟩ :=
    fetched_like_handed_over hdelay hword hhigh hlow
  rw [hstep] at htrue
  obtain rfl : goesOn = true := Option.some.inj htrue
  exact ⟨hdelay, hword, hhigh, hlow, i, stepped, executed, hi, hstep, hexecute, hsame⟩

end Emulator

end Chip8
