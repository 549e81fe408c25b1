import Chip8.Proofs.Request

/-!
# Chip8.Proofs.Halting

When the machine halts, what is left of it, and that it stays halted.
`Machine.Stuck` lists the four ways in which a machine cannot go on, each with the
reason, the word and the operation that are noted.  A step is answered with `false`
exactly from a stuck machine (`step_of_stuck`, `stuck_of_step`), and the notes are
all that it changes.  A stuck machine is stuck whatever its timers and keys are, so
ticks and key events do not set it going again.
-/

namespace Chip8

/-! ## words at the program counter -/

/-- Words are decoded by what they are. -/
theorem Instruction.decode_natCast (w : Nat) : decode w = ofWord? w := by
  rw [decode, if_pos (Int.natCast_nonneg w), Int.toNat_natCast]

namespace Machine

/-- There is room for a word at the program counter. -/
def HasRoom (m : Machine) : Prop := 0 ≤ m.processor.pc ∧ m.processor.pc + 2 ≤ 0x1000

/-- The word at the program counter, high byte first. -/
def wordHere (m : Machine) : Nat :=
  joinBytes (m.peek m.processor.pc) (m.peek (m.processor.pc + 1))

/-- Within memory, the byte at an address is the one in its place. -/
theorem peek_of_range (m : Machine) {a : Int} (h : 0 ≤ a ∧ a ≤ 0xFFF) :
    m.peek a = m.memory.bytes.get ⟨a.toNat, by omega⟩ := by
  have hplace : addressPlace a = ⟨a.toNat, by omega⟩ := by
    apply Fin.ext
    simp only [addressPlace, wrap_of_range h]
  change m.memory.bytes.get (addressPlace a) = _
  rw [hplace]

/-- A word is fetched where there is room for one. -/
theorem fetch_of_room {m : Machine} (h : m.HasRoom) : m.fetch = some m.wordHere := by
  obtain ⟨hlo, hhi⟩ := h
  have hblock : 0 ≤ m.processor.pc ∧ (0 : Int) ≤ 2 ∧ m.processor.pc + 2 ≤ (0x1000 : Nat) := by omega
  have hnext : (m.processor.pc + 1).toNat = m.processor.pc.toNat + 1 := by omega
  have hbytes : m.memory.loadMany m.processor.pc 2 =
      some [m.peek m.processor.pc, m.peek (m.processor.pc + 1)] := by
    rw [Memory.loadMany, dif_pos hblock, m.peek_of_range (by omega), m.peek_of_range (by omega)]
    simp only [hnext]
    rfl
  rw [fetch, hbytes]
  rfl

theorem fetch_of_noRoom {m : Machine} (h : ¬m.HasRoom) : m.fetch = none := by
  have hblock : ¬(0 ≤ m.processor.pc ∧ (0 : Int) ≤ 2 ∧ m.processor.pc + 2 ≤ (0x1000 : Nat)) := by
    unfold HasRoom at h
    omega
  rw [fetch, Memory.loadMany, dif_neg hblock]

theorem decode_wordHere (m : Machine) :
    Instruction.decode m.wordHere = Instruction.ofWord? m.wordHere :=
  Instruction.decode_natCast _

/-- What is fetched is the word at the program counter, for which there is room. -/
theorem of_fetch {m : Machine} {word : Nat} (h : m.fetch = some word) :
    m.HasRoom ∧ word = m.wordHere := by
  by_cases hroom : m.HasRoom
  · rw [fetch_of_room hroom] at h
    exact ⟨hroom, (Option.some.inj h).symm⟩
  · rw [fetch_of_noRoom hroom] at h
    cases h

/-! ## the four ways of halting -/

/-- The machine cannot go on: why, at which word, and what is noted as the operation
that was found. -/
inductive Stuck (m : Machine) : HaltReason → Option Nat → Option Instruction → Prop
  | endOfMemory (h : m.processor.pc < 0 ∨ 0x1000 < m.processor.pc + 2) :
      Stuck m .endOfMemory none m.lastOp
  | invalidInstruction (hroom : m.HasRoom) (h : Instruction.decode m.wordHere = none) :
      Stuck m .invalidInstruction (some m.wordHere) none
  | stackUnderflow {i} (hroom : m.HasRoom) (hi : Instruction.decode m.wordHere = some i)
      (hop : i.opcode = .ret) (h : m.processor.stack.frames = []) :
      Stuck m .stackUnderflow (some m.wordHere) (some i)
  | stackOverflow {i} (hroom : m.HasRoom) (hi : Instruction.decode m.wordHere = some i)
      (hop : i.opcode = .call) (h : m.processor.stack.limit ≤ m.processor.stack.depth) :
      Stuck m .stackOverflow (some m.wordHere) (some i)

/-- The machine with the notes of a halt. -/
def stopped (m : Machine) (reason : HaltReason) (word : Option Nat) (op : Option Instruction) :
    Machine :=
  { m with lastOp := op, haltReason := some reason, haltWord := word }

theorem perform_ret_of_empty {m : Machine} {i : Instruction} (hop : i.opcode = .ret)
    (h : m.processor.stack.frames = []) : m.perform i = .error (.halt .stackUnderflow) := by
  obtain ⟨op, o⟩ := i
  obtain rfl : op = .ret := hop
  simp only [perform, Processor.ret, CallStack.pop, h]

theorem perform_call_of_full {m : Machine} {i : Instruction} (hop : i.opcode = .call)
    (h : m.processor.stack.limit ≤ m.processor.stack.depth) :
    m.perform i = .error (.halt .stackOverflow) := by
  obtain ⟨op, o⟩ := i
  obtain rfl : op = .call := hop
  have hfull : m.processor.stack.isFull = true := decide_eq_true h
  exact perform_call_of_isFull o hfull

/-- A stuck machine notes why it is stuck, and changes nothing else. -/
theorem step_of_stuck {m : Machine} {reason : HaltReason} {word : Option Nat}
    {op : Option Instruction} (h : m.Stuck reason word op) :
    m.step = (.ok false, m.stopped reason word op) := by
  unfold step
  cases h with
  | endOfMemory hpc =>
      have hroom : ¬m.HasRoom := by
        unfold HasRoom
        omega
      rw [fetch_of_noRoom hroom]
      rfl
  | invalidInstruction hroom hnone =>
      rw [decode_wordHere] at hnone
      simp only [fetch_of_room hroom, hnone]
      rfl
  | @stackUnderflow i hroom hi hop hframes =>
      rw [decode_wordHere] at hi
      have hperform := perform_ret_of_empty (m := m.found i) hop hframes
      simp only [fetch_of_room hroom, hi, hperform]
      rfl
  | @stackOverflow i hroom hi hop hfull =>
      rw [decode_wordHere] at hi
      have hperform := perform_call_of_full (m := m.found i) hop hfull
      simp only [fetch_of_room hroom, hi, hperform]
      rfl

/-- A step that does not go on was made by a stuck machine. -/
theorem stuck_of_step {m : Machine} (h : m.step.1 = .ok false) :
    ∃ reason word op, m.Stuck reason word op := by
  have hstep := m.stepped_step
  generalize m.step = r at hstep h
  cases hstep with
  | endOfMemory hnone =>
      have hroom : ¬m.HasRoom := fun hroom => by simp [fetch_of_room hroom] at hnone
      unfold HasRoom at hroom
      exact ⟨_, _, _, .endOfMemory (by omega)⟩
  | invalid hword hnone =>
      obtain ⟨hroom, rfl⟩ := of_fetch hword
      exact ⟨_, _, _, .invalidInstruction hroom (m.decode_wordHere.trans hnone)⟩
  | halted hword hi hperform =>
      obtain ⟨hroom, rfl⟩ := of_fetch hword
      have hdecode := m.decode_wordHere.trans hi
      rcases of_perform_halt hperform with ⟨hop, hframes, rfl⟩ | ⟨hop, hfull, rfl⟩
      · exact ⟨_, _, _, .stackUnderflow hroom hdecode hop hframes⟩
      · exact ⟨_, _, _, .stackOverflow hroom hdecode hop hfull⟩
  | carriedOut | faulted => cases h

/-- A step that goes on forgets why the machine halted before. -/
theorem not_halted_of_step {m : Machine} (h : m.step.1 = .ok true) :
    m.step.2.haltReason = none ∧ m.step.2.haltWord = none := by
  have hstep := m.stepped_step
  generalize m.step = r at hstep h ⊢
  cases hstep with
  | carriedOut => exact ⟨rfl, rfl⟩
  | endOfMemory | invalid | halted | faulted => cases h

/-! ## staying halted -/

/-- The machine with other timers and keys. -/
def withHooks (m : Machine) (dt st : Int) (keypad : Keypad) : Machine :=
  { m with keypad, processor := { m.processor with dt, st } }

/-- Neither timers nor keys set a stuck machine going, and the notes of its halt are
those that it would make again. -/
theorem Stuck.stays {m : Machine} {reason : HaltReason} {word : Option Nat}
    {op : Option Instruction} (h : m.Stuck reason word op) (dt st : Int) (keypad : Keypad) :
    ((m.stopped reason word op).withHooks dt st keypad).Stuck reason word op := by
  cases h with
  | endOfMemory hpc => exact .endOfMemory hpc
  | invalidInstruction hroom hnone => exact .invalidInstruction hroom hnone
  | stackUnderflow hroom hi hop hframes => exact .stackUnderflow hroom hi hop hframes
  | stackOverflow hroom hi hop hfull => exact .stackOverflow hroom hi hop hfull

/-- A step of a machine that has halted changes nothing at all. -/
theorem step_of_halted {m : Machine} {reason : HaltReason} {word : Option Nat}
    {op : Option Instruction} (h : m.Stuck reason word op) (dt st : Int) (keypad : Keypad) :
    ((m.stopped reason word op).withHooks dt st keypad).step =
      (.ok false, (m.stopped reason word op).withHooks dt st keypad) :=
  step_of_stuck (h.stays dt st keypad)

end Machine

/-- Steps, ticks and events of any keys, those that there are and others. -/
def Request.isHook : Request → Prop
  | .step | .tick | .keyDown _ | .keyUp _ => True
  | _ => False

namespace Emulator

open Machine

/-- Steps, ticks and key events leave a halted machine as it is, up to its timers and
keys. -/
theorem serve_of_halted {m : Machine} {reason : HaltReason} {word : Option Nat}
    {op : Option Instruction} (h : m.Stuck reason word op) (e : Emulator) (request : Request)
    (hhook : request.isHook)
    (he : ∃ dt st keypad, e.toMachine = (m.stopped reason word op).withHooks dt st keypad) :
    ∃ dt st keypad, (e.serve request).2.toMachine =
      (m.stopped reason word op).withHooks dt st keypad := by
  obtain ⟨dt, st, keypad, he⟩ := he
  have hkey := @serve_key e request
  cases request with
  | step =>
      refine ⟨dt, st, keypad, ?_⟩
      change e.step.2.toMachine = _
      rw [e.step_toMachine, he, step_of_halted h]
  | tick =>
      refine ⟨max 0 (dt - 1), max 0 (st - 1), keypad, ?_⟩
      change e.tick.toMachine = _
      rw [toMachine_tick, he]
      rfl
  | keyDown index | keyUp index =>
      obtain ⟨-, keypad, hmoved⟩ := hkey rfl
      refine ⟨dt, st, keypad, ?_⟩
      rw [hmoved, he]
      rfl
  | _ => exact hhook.elim

/-- **Halting is exact and lasts**: a step is answered with `false` exactly from a
stuck machine; it then notes the reason, the word and the operation and changes
nothing else.  After that, steps, ticks and key events in any order change timers and
keys at most, and every step is answered with `false` again and changes nothing.  A
step that goes on leaves no note of a halt. -/
theorem halting_exact (e : Emulator) :
    (e.step.1 = .ok false ↔ ∃ reason word op, e.toMachine.Stuck reason word op) ∧
      (∀ reason word op, e.toMachine.Stuck reason word op →
        e.step.2.toMachine = e.toMachine.stopped reason word op ∧
          ∀ requests : List Request, (∀ request ∈ requests, request.isHook) →
            let after := e.step.2.serveAll requests
            (∃ dt st keypad, after.toMachine =
                (e.toMachine.stopped reason word op).withHooks dt st keypad) ∧
              after.step.1 = .ok false ∧ after.step.2.toMachine = after.toMachine) ∧
      (e.step.1 = .ok true → e.step.2.haltReason = none ∧ e.step.2.haltWord = none) := by
  refine ⟨⟨?_, ?_⟩, ?_, ?_⟩
  · intro hfalse
    exact stuck_of_step (e.step_fst ▸ hfalse)
  · rintro ⟨reason, word, op, hstuck⟩
    rw [e.step_fst, step_of_stuck hstuck]
  · intro reason word op hstuck
    have hhalted : e.step.2.toMachine = e.toMachine.stopped reason word op := by
      rw [e.step_toMachine, step_of_stuck hstuck]
    refine ⟨hhalted, ?_⟩
    intro requests hhooks
    have hafter := serveAll_invariant (serve_of_halted hstuck) ⟨_, _, _, hhalted⟩ hhooks
    obtain ⟨dt, st, keypad, hmachine⟩ := hafter
    refine ⟨⟨dt, st, keypad, hmachine⟩, ?_, ?_⟩
    · rw [step_fst, hmachine, step_of_halted hstuck]
    · rw [step_toMachine, hmachine, step_of_halted hstuck]
  · intro htrue
    have hnotes := not_halted_of_step (e.step_fst ▸ htrue)
    rw [← e.step_toMachine] at hnotes
    exact hnotes

/-- An emulator that finds calls everywhere and has room for none. -/
def crowded : Emulator :=
  { toMachine := { Machine.blank 0 0 0x200 (Rng.cycle []) with
      memory := ⟨Vector.replicate 0x1000 0x22, 0⟩ }
    log := .off }

theorem halting_exact_crowded :
    crowded.toMachine.Stuck .stackOverflow (some 0x2222) (some ⟨.call, (0x222 : Address)⟩) ∧
      (crowded.serveAll [.step, .tick, .keyDown 3, .keyUp 99, .step]).step.1 = .ok false := by
  have hword : crowded.wordHere = 0x2222 := by
    simp [crowded, wordHere, peek, joinBytes]
  have hdecode : Instruction.decode crowded.wordHere = some ⟨.call, (0x222 : Address)⟩ := by
    rw [hword]
    decide
  have hstuck : crowded.toMachine.Stuck .stackOverflow (some crowded.wordHere)
      (some ⟨.call, (0x222 : Address)⟩) :=
    .stackOverflow ⟨by decide, by decide⟩ hdecode rfl (by decide)
  have hlasts := ((halting_exact crowded).2.1 _ _ _ hstuck).2
    [.tick, .keyDown 3, .keyUp 99, .step] (by simp [Request.isHook])
  exact ⟨hword ▸ hstuck, hlasts.2.1⟩

end Emulator

end Chip8
