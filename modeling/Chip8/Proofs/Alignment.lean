import Chip8.Proofs.Running
import Chip8.Proofs.Subroutine

/-!
# Chip8.Proofs.Alignment

Only a jump to an odd address can lead off the end of memory.  A machine is `Aligned` if its
program counter is even and leaves room for a word, and if the addresses on its stack are even.
The end of memory is at an even address, so going on from word to word past it leads to another
even address.  What an instruction may do to the program counter is to go on or back from an even
address, or to go to a target of its own (`target?`); `aligned_perform` is the case split,
`aligned_step` says the same of a step, and `keptBy_aligned` of any sequence of steps, runs, ticks
and key events.
-/

namespace Chip8

namespace Machine

/-- Where an instruction goes to that jumps or calls. -/
def target? (m : Machine) : Instruction → Option Int
  | ⟨.jump, (a : Address)⟩ | ⟨.call, (a : Address)⟩ => some a.val
  | ⟨.jumpOffset, (a : Address)⟩ => some ((m.reg 0).toNat + a.val)
  | _ => none

/-- The program counter is at an even address with room for a word, and the addresses on the
stack are even. -/
structure Aligned (m : Machine) : Prop where
  room : 0 ≤ m.processor.pc ∧ m.processor.pc ≤ 0xFFE
  even : 2 ∣ m.processor.pc
  frames : ∀ a ∈ m.processor.stack.frames, 2 ∣ a

/-- If the next step carries out a jump or a call, then one to an even address. -/
def JumpsEvenly (m : Machine) : Prop :=
  m.step.1 = .ok true → ∀ i ∈ m.upcoming, ∀ a ∈ m.target? i, 2 ∣ a

instance (m : Machine) : Decidable m.JumpsEvenly := inferInstanceAs (Decidable (_ → _))

/-- Cutting an even address to twelve bits leaves an even one with room for a word. -/
theorem Aligned.of_wrap {m : Machine} {a : Int} (hpc : m.processor.pc = wrap a) (ha : 2 ∣ a)
    (hframes : ∀ b ∈ m.processor.stack.frames, 2 ∣ b) : m.Aligned := by
  have hrange := wrap_mem_range a
  have heven : 2 ∣ wrap a := by
    unfold wrap
    omega
  constructor
  · rw [hpc]
    omega
  · rw [hpc]
    exact heven
  · exact hframes

theorem Aligned.hasRoom {m : Machine} (hm : m.Aligned) : m.HasRoom := by
  obtain ⟨hlo, hhi⟩ := hm.room
  constructor <;> omega

/-! ## instructions -/

/-- An instruction has a target exactly if it jumps or calls. -/
theorem target?_eq_none {m : Machine} {i : Instruction} (h : m.target? i = none) :
    i.opcode.effect ≠ .jump ∧ i.opcode.effect ≠ .call := by
  obtain ⟨op, o⟩ := i
  cases op
  case jump | jumpOffset | call => contradiction
  all_goals simp [Opcode.effect]

/-- A jump or a call that is carried out goes to its target. -/
theorem pc_of_target {m after : Machine} {i : Instruction} {a : Int}
    (h : m.perform i = .ok after) (ha : m.target? i = some a) :
    after.processor.pc = wrap a := by
  obtain ⟨op, o⟩ := i
  cases op
  case jump | jumpOffset =>
    obtain rfl := Except.ok.inj h
    obtain rfl := Option.some.inj ha
    rfl
  case call =>
    cases hfull : m.processor.stack.isFull with
    | true => cases (perform_call_of_isFull o hfull).symm.trans h
    | false =>
        rw [perform_call o hfull] at h
        obtain rfl := Except.ok.inj h
        obtain rfl := Option.some.inj ha
        rfl
  all_goals contradiction

/-- The addresses on the stack stay even: a call adds its own address to them. -/
theorem frames_even_perform {m after : Machine} {i : Instruction} (h : m.perform i = .ok after)
    (hm : m.Aligned) : ∀ a ∈ after.processor.stack.frames, 2 ∣ a := by
  have hout := outcome_of_perform h
  generalize i.opcode = op at hout
  cases hout
  case call a hroom => exact List.forall_mem_cons.2 ⟨hm.even, hm.frames⟩
  case ret a rest hframes =>
    have hm_frames := hm.frames
    rw [hframes] at hm_frames
    exact (List.forall_mem_cons.1 hm_frames).2
  all_goals exact hm.frames

/-- An instruction without a target goes on or back from an even address. -/
theorem pc_of_noTarget {m after : Machine} {i : Instruction} (h : m.perform i = .ok after)
    (hm : m.Aligned) (htarget : m.target? i = none) :
    ∃ a, 2 ∣ a ∧ after.processor.pc = wrap a := by
  have heven := hm.even
  obtain ⟨hnojump, hnocall⟩ := target?_eq_none htarget
  have hout := outcome_of_perform h
  generalize i.opcode = op at hout hnojump hnocall
  cases hout
  case jump a heffect => exact absurd heffect hnojump
  case call a hroom => exact absurd rfl hnocall
  case skip condition heffect =>
    refine ⟨_, ?_, rfl⟩
    cases condition <;> simp only [Bool.false_eq_true, if_true, if_false] <;> omega
  case ret a rest hframes =>
    have hm_frames := hm.frames
    rw [hframes] at hm_frames
    -- what is saved is the address of the call, and the return steps over that
    have ha : 2 ∣ a := hm_frames a List.mem_cons_self
    exact ⟨a + 2, by omega, rfl⟩
  all_goals exact ⟨m.processor.pc + 2, by omega, rfl⟩

/-- An instruction keeps a machine aligned if its target, where it has one, is even. -/
theorem aligned_perform {m after : Machine} {i : Instruction} (h : m.perform i = .ok after)
    (hm : m.Aligned) (htarget : ∀ a ∈ m.target? i, 2 ∣ a) : after.Aligned := by
  have hframes := frames_even_perform h hm
  cases hsome : m.target? i with
  | some a => exact .of_wrap (pc_of_target h hsome) (htarget a hsome) hframes
  | none =>
      obtain ⟨a, ha, hpc⟩ := pc_of_noTarget h hm hsome
      exact .of_wrap hpc ha hframes

/-! ## steps -/

theorem aligned_step {m : Machine} (hm : m.Aligned) (hjumps : m.JumpsEvenly) :
    m.step.2.Aligned := by
  have hstep := m.stepped_step
  unfold JumpsEvenly at hjumps
  generalize m.step = r at hstep hjumps ⊢
  cases hstep with
  | @carriedOut word i after hword hi h =>
      have hupcoming := upcoming_of_fetch hword hi
      have hfound : (m.found i).Aligned := ⟨hm.room, hm.even, hm.frames⟩
      have hafter : after.Aligned := aligned_perform h hfound (hjumps rfl i hupcoming)
      exact ⟨hafter.room, hafter.even, hafter.frames⟩
  | endOfMemory | invalid | halted | faulted => exact ⟨hm.room, hm.even, hm.frames⟩

/-- A machine that is aligned finds a word, so it does not halt at the end of memory. -/
theorem Aligned.reads {m : Machine} (hm : m.Aligned) :
    m.fetch = some m.wordHere ∧
      (m.step.1 = .ok false → m.step.2.haltReason ≠ some .endOfMemory) := by
  refine ⟨fetch_of_room hm.hasRoom, ?_⟩
  intro hfalse
  obtain ⟨reason, word, op, hstuck⟩ := stuck_of_step hfalse
  rw [step_of_stuck hstuck]
  have hroom := hm.room
  cases hstuck with
  | endOfMemory hpc => omega
  | invalidInstruction | stackUnderflow | stackOverflow => simp [stopped]

/-- A machine stays aligned while it is left to run and jumps evenly. -/
theorem keptBy_aligned : KeptBy JumpsEvenly Aligned where
  step := aligned_step
  tick hm := ⟨hm.room, hm.even, hm.frames⟩
  keys hm _ := ⟨hm.room, hm.even, hm.frames⟩

end Machine

namespace Emulator

open Machine

/-- **Even jumps stay in memory**: if an aligned machine goes through any steps, runs, ticks and
key events in which every jump and every call that is carried out goes to an even address, then it
is aligned all along, after each call and before each single step.  So there is a word to fetch
in every one of these states, and no step halts at the end of memory. -/
theorem stays_aligned {e : Emulator} (he : e.toMachine.Aligned) {requests : List Request}
    (hrunning : ∀ request ∈ requests, request.isRunning)
    (hjumps : ∀ f ∈ e.allSteps requests, f.toMachine.JumpsEvenly) :
    (∀ before, before <+: requests →
      (e.serveAll before).toMachine.Aligned ∧ (e.serveAll before).fetch.isSome = true) ∧
    ∀ f ∈ e.allSteps requests,
      f.toMachine.Aligned ∧ f.fetch.isSome = true ∧
        (f.step.1 = .ok false → f.step.2.haltReason ≠ some .endOfMemory) := by
  constructor
  · rintro before ⟨later, rfl⟩
    rw [allSteps_append, List.forall_mem_append] at hjumps
    have hrunning_before := (List.forall_mem_append.1 hrunning).1
    have hbefore := (keptBy_serveAll keptBy_aligned he hrunning_before hjumps.1).1
    exact ⟨hbefore, by rw [hbefore.reads.1]; rfl⟩
  · intro f hf
    have haligned := (keptBy_serveAll keptBy_aligned he hrunning hjumps).2 f hf
    obtain ⟨hfetch, hhalt⟩ := haligned.reads
    rw [← f.step_fst, ← f.step_toMachine] at hhalt
    exact ⟨haligned, by rw [hfetch]; rfl, hhalt⟩

/-- Two subroutines are called and left; the return from the outer one, which was called at the
last word of memory, goes on past the end of memory. -/
theorem stays_aligned_calling :
    let requests : List Request := [.step, .tick, .keyDown 99, .run (some 9)]
    calling.toMachine.Aligned ∧ (∀ request ∈ requests, request.isRunning) ∧
      (∀ f ∈ calling.allSteps requests, f.toMachine.JumpsEvenly) ∧
      (calling.allSteps requests).map (·.processor.pc) = [0xFFE, 0x300, 0x304, 0x302, 0] ∧
      ∀ f ∈ calling.allSteps requests, f.step.1 = .ok false →
        f.step.2.haltReason ≠ some .endOfMemory := by
  intro requests
  have haligned : calling.toMachine.Aligned := ⟨by decide, by decide, by decide⟩
  have hrunning : ∀ request ∈ requests, request.isRunning := by
    simp [requests, Request.isRunning, Request.isHook]
  have hjumps : ∀ f ∈ calling.allSteps requests, f.toMachine.JumpsEvenly := by decide +kernel
  have hsteps := (stays_aligned haligned hrunning hjumps).2
  exact ⟨haligned, hrunning, hjumps, by decide +kernel, fun f hf => (hsteps f hf).2.2⟩

end Emulator

end Chip8
