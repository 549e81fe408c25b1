import Chip8.Proofs.Request

/-!
# Chip8.Proofs.NoFault

No program can make the machine fault.  The only thing that carrying out an
instruction relies on is that the delay timer holds a byte, and instructions and
ticks keep that; the program counter, the index register, the sound timer, the
call stack, the memory and the random numbers may hold anything.

`program_never_faults` states this for single steps and for every sequence of
steps, runs, ticks and key events.
-/

namespace Chip8

/-- The delay timer holds a byte, as it has to where it is copied to a
register. -/
def Processor.DelayIsByte (p : Processor) : Prop := 0 ≤ p.dt ∧ p.dt ≤ 0xFF

instance (p : Processor) : Decidable p.DelayIsByte := inferInstanceAs (Decidable (_ ∧ _))

/-- The shape of a machine: how many bytes, registers, pixels and keys there are,
and that bytes are bytes. -/
structure Machine.Shape (m : Machine) : Prop where
  memory : m.memory.bytes.toList.length = 0x1000 ∧ ∀ b ∈ m.memory.bytes.toList, b.toNat ≤ 0xFF
  registers : m.processor.v.toList.length = 16 ∧ ∀ b ∈ m.processor.v.toList, b.toNat ≤ 0xFF
  screen : m.screen.rows.length = 32 ∧ ∀ row ∈ m.screen.rows, row.length = 64
  keys : m.keypad.down.toList.length = 16

/-- The calls of a driver, which concern keys that there are. -/
def Request.drives : Request → Prop
  | .step | .run _ | .tick => True
  | .keyDown index | .keyUp index => 0 ≤ index ∧ index < 16
  | _ => False

namespace Machine

/-- The types of the parts leave no other shape. -/
theorem shape (m : Machine) : m.Shape where
  memory := ⟨by simp, fun b _ => Nat.le_of_lt_succ b.toNat_lt⟩
  registers := ⟨by simp, fun b _ => Nat.le_of_lt_succ b.toNat_lt⟩
  screen := by
    constructor
    · exact m.screen.length_rows
    · intro row hrow
      simp only [Screen.rows, List.mem_ofFn] at hrow
      obtain ⟨y, rfl⟩ := hrow
      exact List.length_ofFn
  keys := by simp

/-! ## instructions -/

/-- An instruction faults on nothing but a delay timer that is no byte. -/
theorem fault_of_perform {m : Machine} {i : Instruction} {cause : Fault}
    (h : m.perform i = .error (.fault cause)) :
    cause = .registerValue ∧ ¬m.processor.DelayIsByte := by
  have hout := outcome_of_perform h
  generalize i.opcode = op at hout
  cases hout with
  | delayRefused hnone => exact ⟨rfl, byte?_eq_none_iff.1 hnone⟩

theorem perform_ne_fault {m : Machine} (hdelay : m.processor.DelayIsByte) (i : Instruction)
    (cause : Fault) : m.perform i ≠ .error (.fault cause) :=
  fun h => (fault_of_perform h).2 hdelay

/-- The delay timer is set from registers alone. -/
theorem delayIsByte_perform {m after : Machine} {i : Instruction}
    (hdelay : m.processor.DelayIsByte) (h : m.perform i = .ok after) :
    after.processor.DelayIsByte := by
  have hout := outcome_of_perform h
  generalize i.opcode = op at hout
  cases hout
  case delay x =>
    have hbyte := (m.reg x).toNat_lt
    change 0 ≤ ((m.reg x).toNat : Int) ∧ ((m.reg x).toNat : Int) ≤ 0xFF
    omega
  all_goals exact hdelay

/-! ## steps -/

theorem delayIsByte_step {m : Machine} (hdelay : m.processor.DelayIsByte) :
    m.step.2.processor.DelayIsByte := by
  have hstep := m.stepped_step
  generalize m.step = r at hstep ⊢
  cases hstep with
  | carriedOut hword hi h =>
      have hafter := delayIsByte_perform (m := m.found _) hdelay h
      exact hafter
  | _ => exact hdelay

/-- A step is answered, whatever the program is. -/
theorem step_ok {m : Machine} (hdelay : m.processor.DelayIsByte) :
    ∃ goesOn, m.step.1 = .ok goesOn := by
  have hstep := m.stepped_step
  generalize m.step = r at hstep ⊢
  cases hstep with
  | faulted hword hi h => exact absurd h (perform_ne_fault (m := m.found _) hdelay _ _)
  | carriedOut => exact ⟨true, rfl⟩
  | _ => exact ⟨false, rfl⟩

end Machine

namespace Emulator

/-! ## runs and sequences of calls -/

/-- A run is answered, however long it is. -/
theorem runOn_ok {e : Emulator} (hdelay : e.processor.DelayIsByte) (done limit : Nat) :
    ∃ n, (e.runOn done limit).1 = .ok n := by
  induction limit generalizing e done with
  | zero => exact ⟨done, rfl⟩
  | succ limit ih =>
      obtain ⟨goesOn, hok⟩ := e.step_fst ▸ Machine.step_ok hdelay
      have hafter : e.step.2.toMachine.processor.DelayIsByte :=
        e.step_toMachine ▸ Machine.delayIsByte_step hdelay
      rw [runOn_succ]
      generalize e.step = r at hok hafter ⊢
      obtain ⟨answer, after⟩ := r
      obtain rfl : answer = .ok goesOn := hok
      cases goesOn with
      | true => exact ih hafter (done + 1)
      | false => exact ⟨done, rfl⟩

/-- A driver's call is answered, and keeps the delay timer a byte. -/
theorem serve_ok {e : Emulator} (hdelay : e.processor.DelayIsByte) {request : Request}
    (hdrives : request.drives) :
    (∃ a, (e.serve request).1 = .ok a) ∧ (e.serve request).2.processor.DelayIsByte := by
  have hkey := @serve_key e request
  cases request with
  | step =>
      obtain ⟨goesOn, hok⟩ := e.step_fst ▸ Machine.step_ok hdelay
      have hafter : e.step.2.toMachine.processor.DelayIsByte :=
        e.step_toMachine ▸ Machine.delayIsByte_step hdelay
      exact ⟨⟨.truth goesOn, by rw [serve, hok]; rfl⟩, hafter⟩
  | run limit =>
      obtain ⟨count, hok⟩ := runOn_ok hdelay 0 (runLimit limit)
      have hafter := runOn_invariant (P := fun m => m.processor.DelayIsByte)
        (fun m => Machine.delayIsByte_step) hdelay 0 (runLimit limit)
      rw [serve, run_eq]
      exact ⟨⟨.count count, by rw [hok]; rfl⟩, hafter⟩
  | tick =>
      refine ⟨⟨_, rfl⟩, ?_⟩
      have htick : 0 ≤ max 0 (e.processor.dt - 1) ∧ max 0 (e.processor.dt - 1) ≤ 0xFF := by
        unfold Processor.DelayIsByte at hdelay
        omega
      exact htick
  | keyDown index | keyUp index =>
      obtain ⟨hanswer, keypad, hmachine⟩ := hkey rfl
      exact ⟨⟨_, hanswer hdrives⟩, by rw [hmachine]; exact hdelay⟩
  | _ => exact hdrives.elim

/-- **No program faults**: where the delay timer holds a byte, a step is answered,
the delay timer still holds a byte, and the machine has its shape; so every call in
a sequence of steps, runs, ticks and events of keys that exist is answered too. -/
theorem program_never_faults (e : Emulator) (hdelay : e.processor.DelayIsByte) :
    ((∃ goesOn, e.step.1 = .ok goesOn) ∧ e.step.2.processor.DelayIsByte ∧
        e.step.2.toMachine.Shape) ∧
      ∀ requests : List Request, (∀ request ∈ requests, request.drives) →
        (∀ answer ∈ e.answers requests, ∃ a, answer = .ok a) ∧
          (e.serveAll requests).processor.DelayIsByte ∧
          (e.serveAll requests).toMachine.Shape := by
  refine ⟨⟨?_, ?_, Machine.shape _⟩, ?_⟩
  · rw [e.step_fst]
    exact Machine.step_ok hdelay
  · rw [e.step_toMachine]
    exact Machine.delayIsByte_step hdelay
  · intro requests hdrives
    refine ⟨?_, ?_, Machine.shape _⟩
    · exact answers_ok (P := fun e => e.processor.DelayIsByte)
        (fun e request hallowed he => serve_ok he hallowed) hdelay hdrives
    · exact serveAll_invariant (P := fun e => e.processor.DelayIsByte)
        (fun e request hallowed he => (serve_ok he hallowed).2) hdelay hdrives

/-- An emulator in a state that no sequence of calls leads to: numbers out of
range everywhere, and random numbers that are no bytes. -/
def tampered : Emulator :=
  let m := Machine.blank (-3) 5000 (-7) { draw := fun k => 1000 - 300 * k }
  { toMachine :=
      { m with
        processor :=
          { m.processor with
            pc := 0x1FFE, i := -9, dt := 0xFF, st := -4, stack := ⟨-3, [-1, 70000]⟩ } }
    log := .off }

theorem program_never_faults_tampered :
    tampered.processor.DelayIsByte ∧
      (∀ request ∈ [Request.step, .tick, .keyDown 15, .run (some 100)], request.drives) ∧
      ∀ answer ∈ tampered.answers [.step, .tick, .keyDown 15, .run (some 100)],
        ∃ a, answer = .ok a := by
  have hdelay : tampered.processor.DelayIsByte := by decide
  have hdrives : ∀ request ∈ [Request.step, .tick, .keyDown 15, .run (some 100)],
      request.drives := by
    simp [Request.drives]
  exact ⟨hdelay, hdrives, ((program_never_faults tampered hdelay).2 _ hdrives).1⟩

end Emulator

end Chip8
