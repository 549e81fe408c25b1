import Chip8.Emulator
import Chip8.Proofs.Outcome

/-!
# Chip8.Proofs.Step

Steps of a machine without a log.  `Machine.step` is the cycle of fetching,
decoding and carrying out, and `toMachine_step` states that an emulator's step is
this one, whatever its log keeps.  `stepped_step` says what one step can do; the
invariants of later modules are read off it.
-/

namespace Chip8

namespace Machine

/-- Notes an instruction as the one that the last step found. -/
def found (m : Machine) (i : Instruction) : Machine := { m with lastOp := some i }

/-- Forgets why the machine halted. -/
def running (m : Machine) : Machine := { m with haltReason := none, haltWord := none }

/-- A step that is not reported to anyone. -/
def step (m : Machine) : Except Fault Bool × Machine :=
  match m.fetch with
  | none => (.ok false, m.halt .endOfMemory none)
  | some word =>
    match Instruction.ofWord? word with
    | none => (.ok false, { m with lastOp := none }.halt .invalidInstruction (some word))
    | some i =>
      match (m.found i).perform i with
      | .ok after => (.ok true, after.running)
      | .error (.halt reason) => (.ok false, (m.found i).halt reason (some word))
      | .error (.fault cause) => (.error cause, m.found i)

/-- What a step can do. -/
inductive Stepped (m : Machine) : Except Fault Bool × Machine → Prop
  | endOfMemory (h : m.fetch = none) : Stepped m (.ok false, m.halt .endOfMemory none)
  | invalid {word} (hword : m.fetch = some word) (h : Instruction.ofWord? word = none) :
      Stepped m (.ok false, { m with lastOp := none }.halt .invalidInstruction (some word))
  | carriedOut {word i after} (hword : m.fetch = some word)
      (hi : Instruction.ofWord? word = some i) (h : (m.found i).perform i = .ok after) :
      Stepped m (.ok true, after.running)
  | halted {word i reason} (hword : m.fetch = some word)
      (hi : Instruction.ofWord? word = some i)
      (h : (m.found i).perform i = .error (.halt reason)) :
      Stepped m (.ok false, (m.found i).halt reason (some word))
  | faulted {word i cause} (hword : m.fetch = some word)
      (hi : Instruction.ofWord? word = some i)
      (h : (m.found i).perform i = .error (.fault cause)) :
      Stepped m (.error cause, m.found i)

/-- A step does one of these things. -/
theorem stepped_step (m : Machine) : Stepped m m.step := by
  unfold step
  cases hword : m.fetch with
  | none => exact .endOfMemory hword
  | some word =>
      cases hi : Instruction.ofWord? word with
      | none => simpa only [hi] using Stepped.invalid hword hi
      | some i =>
          simp only [hi]
          cases h : (m.found i).perform i with
          | ok after => exact .carriedOut hword hi h
          | error stop =>
              cases stop with
              | halt reason => exact .halted hword hi h
              | fault cause => exact .faulted hword hi h

/-- A step that does not go on leaves a reason. -/
theorem halted_of_step {m after : Machine} (h : m.step = (.ok false, after)) :
    ∃ reason, after.haltReason = some reason := by
  have hstep := h ▸ m.stepped_step
  cases hstep <;> exact ⟨_, rfl⟩

end Machine

namespace Emulator

@[simp] theorem toMachine_note (e : Emulator) (level : Level) (text : Unit → String) :
    (e.note level text).toMachine = e.toMachine := rfl

@[simp] theorem toMachine_withMachine (e : Emulator) (m : Machine) :
    (e.withMachine m).toMachine = m := rfl

@[simp] theorem toMachine_arrive (e : Emulator) (word : Nat) (i : Instruction) :
    (e.arrive word i).toMachine = e.toMachine.found i := rfl

@[simp] theorem toMachine_noteStackHalt (e : Emulator) (reason : HaltReason) :
    (e.noteStackHalt reason).toMachine = e.toMachine := by
  unfold noteStackHalt
  split
  · rfl
  · split <;> rfl
  · rfl

/-- Carrying out an instruction, by what it does to the machine. -/
theorem carryOut_of_ok {e : Emulator} {i : Instruction} {after : Machine}
    (h : e.toMachine.perform i = .ok after) : e.carryOut i = (.ok true, e.withMachine after) := by
  simp only [carryOut, h]

theorem carryOut_of_halt {e : Emulator} {i : Instruction} {reason : HaltReason}
    (h : e.toMachine.perform i = .error (.halt reason)) :
    (e.carryOut i).1 = .ok false ∧
      (e.carryOut i).2.toMachine = e.toMachine.halt reason none := by
  simp [carryOut, h]

theorem carryOut_of_fault {e : Emulator} {i : Instruction} {cause : Fault}
    (h : e.toMachine.perform i = .error (.fault cause)) : e.carryOut i = (.error cause, e) := by
  simp only [carryOut, h]

/-- A step of an emulator is a step of its machine: the log has no influence. -/
theorem toMachine_step (e : Emulator) :
    e.step.1 = e.toMachine.step.1 ∧ e.step.2.toMachine = e.toMachine.step.2 := by
  unfold step Machine.step
  cases hword : e.fetch with
  | none => exact ⟨rfl, rfl⟩
  | some word =>
      cases hi : Instruction.ofWord? word with
      | none => simp [hi]
      | some i =>
          have harrive := e.toMachine_arrive word i
          simp only [hi]
          cases h : (e.toMachine.found i).perform i with
          | ok after => simp [carryOut_of_ok (harrive ▸ h), Machine.running]
          | error stop =>
              cases stop with
              | halt reason =>
                  obtain ⟨hfalse, hmachine⟩ := carryOut_of_halt (harrive ▸ h)
                  generalize (e.arrive word i).carryOut i = r at hfalse hmachine
                  obtain ⟨answer, after⟩ := r
                  simp only at hfalse hmachine
                  subst hfalse
                  simp [hmachine, Machine.halt]
              | fault cause => simp [carryOut_of_fault (harrive ▸ h)]

theorem step_fst (e : Emulator) : e.step.1 = e.toMachine.step.1 := e.toMachine_step.1

theorem step_toMachine (e : Emulator) : e.step.2.toMachine = e.toMachine.step.2 :=
  e.toMachine_step.2

theorem machine_step_of_step {e after : Emulator} {answer : Except Fault Bool}
    (h : e.step = (answer, after)) : e.toMachine.step = (answer, after.toMachine) := by
  rw [← Prod.eta e.toMachine.step, ← e.step_fst, ← e.step_toMachine, h]

/-- A step of the machine is one of the emulator, which keeps a log besides. -/
theorem exists_step {e : Emulator} {answer : Except Fault Bool} {after : Machine}
    (h : e.toMachine.step = (answer, after)) :
    ∃ e', e.step = (answer, e') ∧ e'.toMachine = after := by
  refine ⟨e.step.2, ?_, ?_⟩
  · rw [← Prod.eta e.step, e.step_fst, h]
  · rw [e.step_toMachine, h]

end Emulator

end Chip8
