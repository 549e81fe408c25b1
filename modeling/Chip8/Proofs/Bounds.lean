import Chip8.Proofs.History

/-!
# Chip8.Proofs.Bounds

The bounds that hold in every state an emulator can get into: the program counter,
the index register and the return addresses have twelve bits, the timers eight, and
there are never more calls under way than the stack was built for.  The number of
calls under way is the number of calls less the number of returns that were carried
out since the processor was last reset.

Layered like the machine: `inBounds_perform` and `depthChange_perform` for one
instruction, then steps, runs and calls, and `bounded_after_calls` for every
sequence of calls, refused ones included.
-/

namespace Chip8

/-- A number that twelve bits hold. -/
def IsAddress (a : Int) : Prop := 0 ≤ a ∧ a ≤ 0xFFF

/-- A number that eight bits hold. -/
def IsByte (n : Int) : Prop := 0 ≤ n ∧ n ≤ 0xFF

instance (n : Int) : Decidable (IsByte n) := inferInstanceAs (Decidable (_ ∧ _))

theorem isAddress_wrap (a : Int) : IsAddress (wrap a) := wrap_mem_range a

theorem isAddress_zero : IsAddress 0 := ⟨by decide, by decide⟩

theorem isByte_toNat (b : UInt8) : IsByte b.toNat := by
  have hb := b.toNat_lt
  unfold IsByte
  omega

theorem byte?_of_isByte {n : Int} (hn : IsByte n) : byte? n = some (lowByte n) := by
  obtain ⟨hlo, hhi⟩ := hn
  have hsmall : n % 0x100 = n := Int.emod_eq_of_lt hlo (by omega)
  rw [byte?, if_pos ⟨hlo, hhi⟩, lowByte, hsmall]

theorem toNat_lowByte {n : Int} (hn : IsByte n) : (lowByte n).toNat = n.toNat := by
  obtain ⟨hlo, hhi⟩ := hn
  rw [lowByte, UInt8.toNat_ofNat']
  omega

/-- A timer that holds a byte does so after it has counted down. -/
theorem isByte_countDown {n : Int} (h : IsByte n) : IsByte (max 0 (n - 1)) := by
  unfold IsByte at h ⊢
  omega

namespace Machine

/-- Every number of a machine is within its bounds; the stack was built for `limit`
calls. -/
structure InBounds (limit : Int) (m : Machine) : Prop where
  pc : IsAddress m.processor.pc
  index : IsAddress m.processor.i
  frames : ∀ a ∈ m.processor.stack.frames, IsAddress a
  depth : (m.processor.stack.depth : Int) ≤ max limit 0
  delay : IsByte m.processor.dt
  sound : IsByte m.processor.st
  stackLimit : m.processor.stack.limit = limit
  programStart : IsAddress m.programStart

/-- The depth of the stack changes by the calls less the returns among some
instructions. -/
def DepthChange (m after : Machine) (instructions : List Instruction) : Prop :=
  (after.processor.stack.depth : Int) =
    m.processor.stack.depth + instructions.countP (fun i => i.opcode = .call) -
      instructions.countP (fun i => i.opcode = .ret)

/-- Nothing is carried out where the stack is left alone. -/
theorem depthChange_nil {m after : Machine} (h : after.processor.stack = m.processor.stack) :
    DepthChange m after [] := by
  simp [DepthChange, h]

theorem DepthChange.append {m between after : Machine} {first second : List Instruction}
    (hfirst : DepthChange m between first) (hsecond : DepthChange between after second) :
    DepthChange m after (first ++ second) := by
  unfold DepthChange at *
  rw [List.countP_append, List.countP_append]
  omega

/-! ## instructions -/

/-- An instruction that is carried out keeps the bounds. -/
theorem inBounds_perform {limit : Int} {m after : Machine} {i : Instruction}
    (hm : m.InBounds limit) (h : m.perform i = .ok after) : after.InBounds limit := by
  have hout := outcome_of_perform h
  generalize i.opcode = op at hout
  have hpc := isAddress_wrap
  cases hout
  case call a hroom =>
    have hlimit := hm.stackLimit
    refine { hm with pc := hpc _, frames := ?_, depth := ?_ }
    · exact List.forall_mem_cons.2 ⟨hm.pc, hm.frames⟩
    · -- there was room, so one more call still is within the limit
      have hlt : ¬m.processor.stack.limit ≤ m.processor.stack.depth := of_decide_eq_false hroom
      change ((m.processor.stack.depth + 1 : Nat) : Int) ≤ max limit 0
      omega
  case ret a rest hframes =>
    have hm_frames := hm.frames
    have hm_depth := hm.depth
    rw [hframes] at hm_frames
    rw [CallStack.depth, hframes] at hm_depth
    refine { hm with pc := hpc _, frames := ?_, depth := ?_ }
    · exact fun b hb => hm_frames b (List.mem_cons_of_mem a hb)
    · change ((rest.length : Nat) : Int) ≤ max limit 0
      rw [List.length_cons] at hm_depth
      omega
  case delay x => exact { hm with pc := hpc _, delay := isByte_toNat _ }
  case sound x => exact { hm with pc := hpc _, sound := isByte_toNat _ }
  case index a hop => exact { hm with pc := hpc _, index := hpc a }
  all_goals exact { hm with pc := hpc _ }

/-- Only calls and returns work on the stack. -/
theorem depthChange_of_effect {m after : Machine} {i : Instruction}
    (hcall : i.opcode.effect ≠ .call) (hret : i.opcode.effect ≠ .ret)
    (h : after.processor.stack = m.processor.stack) : DepthChange m after [i] := by
  have hnocall : i.opcode ≠ .call := fun hop => hcall (hop ▸ rfl)
  have hnoret : i.opcode ≠ .ret := fun hop => hret (hop ▸ rfl)
  simp [DepthChange, h, hnocall, hnoret]

/-- An instruction that is carried out changes the depth by what it is. -/
theorem depthChange_perform {m after : Machine} {i : Instruction}
    (h : m.perform i = .ok after) : DepthChange m after [i] := by
  have hout := outcome_of_perform h
  generalize hop : i.opcode = op at hout
  cases hout
  case call a hroom => simp [DepthChange, hop, onProcessor, CallStack.depth]
  case ret a rest hframes => simp [DepthChange, hop, onProcessor, CallStack.depth, hframes]
  case skip condition heffect | jump a heffect | registers v heffect | index a heffect |
      memory bytes heffect =>
    refine depthChange_of_effect ?_ ?_ rfl <;> rw [hop, heffect] <;> decide
  all_goals
    refine depthChange_of_effect ?_ ?_ rfl <;> rw [hop] <;> decide

/-! ## steps -/

theorem inBounds_step {limit : Int} {m : Machine} (hm : m.InBounds limit) :
    m.step.2.InBounds limit := by
  have hstep := m.stepped_step
  generalize m.step = r at hstep ⊢
  have hfound (i : Instruction) : (m.found i).InBounds limit := { hm with }
  cases hstep with
  | carriedOut hword hi h =>
      have hafter := inBounds_perform (hfound _) h
      exact { hafter with }
  | endOfMemory | invalid | halted | faulted => exact { hm with }

/-- A step that goes on changes the depth by the instruction that it notes. -/
theorem depthChange_step {m after : Machine} (h : m.step = (.ok true, after)) :
    DepthChange m after after.lastOp.toList := by
  obtain ⟨word, i, final, -, -, hperform, rfl, hlast⟩ := carriedOut_of_step h
  rw [hlast]
  have hdepth := depthChange_perform hperform
  exact hdepth

/-- A step that does not go on leaves the stack alone. -/
theorem stack_step {m : Machine} (h : m.step.1 ≠ .ok true) :
    m.step.2.processor.stack = m.processor.stack := by
  have hstep := m.stepped_step
  generalize m.step = r at hstep h ⊢
  cases hstep with
  | carriedOut => exact absurd rfl h
  | endOfMemory | invalid | halted | faulted => rfl

end Machine

namespace Emulator

open Machine

/-! ## runs and single instructions -/

theorem depthChange_runOn (e : Emulator) (done limit : Nat) :
    DepthChange e.toMachine (e.runOn done limit).2.toMachine (e.carriedOut limit) := by
  induction limit generalizing e done with
  | zero => exact depthChange_nil rfl
  | succ limit ih =>
      have hanswer := e.step_fst
      have hafter := e.step_toMachine
      rw [runOn_succ, carriedOut]
      generalize e.step = r at hanswer hafter ⊢
      obtain ⟨answer, after⟩ := r
      have hstay (hno : answer ≠ .ok true) : DepthChange e.toMachine after.toMachine [] := by
        have hstack := stack_step (m := e.toMachine) (hanswer ▸ hno)
        exact depthChange_nil (by rw [← hstack, ← hafter])
      cases answer with
      | error cause => exact hstay (by simp)
      | ok goesOn =>
          cases goesOn with
          | false => exact hstay (by simp)
          | true =>
              have hstep : e.toMachine.step = (.ok true, after.toMachine) :=
                Prod.ext hanswer.symm hafter.symm
              exact (depthChange_step hstep).append (ih after (done + 1))

/-- Carrying out an instruction keeps the bounds, and changes the depth by that
instruction if it completes. -/
theorem bounded_carryOut {limit : Int} {e : Emulator} (he : e.toMachine.InBounds limit)
    (i : Instruction) :
    (e.carryOut i).2.toMachine.InBounds limit ∧
      DepthChange e.toMachine (e.carryOut i).2.toMachine (ifCompleted i (e.carryOut i).1) := by
  cases h : e.toMachine.perform i with
  | ok after =>
      rw [carryOut_of_ok h]
      exact ⟨inBounds_perform he h, depthChange_perform h⟩
  | error stop =>
      cases stop with
      | halt reason =>
          obtain ⟨hfalse, hmachine⟩ := carryOut_of_halt h
          rw [hfalse, hmachine]
          exact ⟨{ he with }, depthChange_nil rfl⟩
      | fault cause =>
          rw [carryOut_of_fault h]
          exact ⟨he, depthChange_nil rfl⟩

theorem bounded_execute {limit : Int} {e : Emulator} (he : e.toMachine.InBounds limit)
    (item : Item) :
    (e.execute item).2.toMachine.InBounds limit ∧
      DepthChange e.toMachine (e.execute item).2.toMachine (e.completed (.execute item)) := by
  cases hcheck : item.check with
  | error cause =>
      simp only [completed, execute, hcheck]
      exact ⟨he, depthChange_nil rfl⟩
  | ok i =>
      simp only [completed, execute, hcheck]
      exact bounded_carryOut he i

/-! ## calls -/

theorem inBounds_settle_load {limit : Int} {e : Emulator} (he : e.toMachine.InBounds limit)
    (program : Except Fault (List UInt8)) :
    (e.settle (program >>= e.loadProgram)).2.toMachine.InBounds limit ∧
      DepthChange e.toMachine (e.settle (program >>= e.loadProgram)).2.toMachine [] := by
  rcases e.settle_load program with h | ⟨bytes, h⟩
  · rw [h]
    exact ⟨he, depthChange_nil rfl⟩
  · rw [h]
    exact ⟨{ he with pc := he.programStart }, depthChange_nil rfl⟩

/-- Every call keeps the bounds. -/
theorem inBounds_serve {limit : Int} {e : Emulator} (he : e.toMachine.InBounds limit)
    (request : Request) : (e.serve request).2.toMachine.InBounds limit := by
  have hkey := @serve_key e request
  cases request with
  | loadProgram data => exact (inBounds_settle_load he (.ok data)).1
  | loadWords words => exact (inBounds_settle_load he (Program.ofWords words)).1
  | loadOperations items => exact (inBounds_settle_load he (Program.encode items)).1
  | step =>
      change e.step.2.toMachine.InBounds limit
      rw [e.step_toMachine]
      exact inBounds_step he
  | run n =>
      change (e.run n).2.toMachine.InBounds limit
      rw [run_eq]
      exact runOn_invariant (fun m hm => inBounds_step hm) he 0 _
  | execute item => exact (bounded_execute he item).1
  | tick =>
      exact { he with delay := isByte_countDown he.delay, sound := isByte_countDown he.sound }
  | keyDown index | keyUp index =>
      obtain ⟨-, keypad, h⟩ := hkey rfl
      rw [h]
      exact { he with }
  | installFont location =>
      change (e.toMachine.installFont location).2.InBounds limit
      rcases e.toMachine.installFont_cases location with ⟨memory, h⟩ | ⟨cause, h⟩
      · rw [h]
        exact { he with index := isAddress_zero }
      · rw [h]
        exact { he with }
  | reset =>
      change e.toMachine.reset.2.InBounds limit
      obtain ⟨hprocessor, hstart⟩ := e.toMachine.processor_reset
      have hzero : IsByte 0 := ⟨by decide, by decide⟩
      constructor
      case programStart => exact hstart ▸ he.programStart
      all_goals rw [hprocessor]
      case pc | index => exact isAddress_zero
      case delay | sound => exact hzero
      case frames => exact fun a ha => absurd ha List.not_mem_nil
      case depth => exact Int.le_max_right limit 0
      case stackLimit => exact he.stackLimit

/-- A call that is no reset changes the depth by the instructions that it
completes. -/
theorem depthChange_serve {limit : Int} {e : Emulator} (he : e.toMachine.InBounds limit)
    {request : Request} (h : request ≠ .reset) :
    DepthChange e.toMachine (e.serve request).2.toMachine (e.completed request) := by
  have hkey := @serve_key e request
  cases request with
  | loadProgram data => exact (inBounds_settle_load he (.ok data)).2
  | loadWords words => exact (inBounds_settle_load he (Program.ofWords words)).2
  | loadOperations items => exact (inBounds_settle_load he (Program.encode items)).2
  | step =>
      have hrun := e.depthChange_runOn 0 1
      have hone : (e.runOn 0 1).2 = e.step.2 := by
        rw [runOn_succ]
        generalize e.step = r
        obtain ⟨answer, after⟩ := r
        match answer with
        | .ok true | .ok false | .error _ => rfl
      rw [hone] at hrun
      exact hrun
  | run n =>
      change DepthChange e.toMachine (e.run n).2.toMachine (e.carriedOut (runLimit n))
      rw [run_eq]
      exact e.depthChange_runOn 0 (runLimit n)
  | execute item => exact (bounded_execute he item).2
  | tick => exact depthChange_nil rfl
  | keyDown index | keyUp index =>
      obtain ⟨-, keypad, hmoved⟩ := hkey rfl
      exact depthChange_nil (by rw [hmoved])
  | installFont location =>
      change DepthChange e.toMachine (e.toMachine.installFont location).2 []
      rcases e.toMachine.installFont_cases location with ⟨memory, hfont⟩ | ⟨cause, hfont⟩ <;>
        exact depthChange_nil (by rw [hfont])
  | reset => exact absurd rfl h

/-- A reset leaves no calls under way, also where it is refused. -/
theorem depth_reset (e : Emulator) : (e.serve .reset).2.processor.stack.depth = 0 := by
  change e.toMachine.reset.2.processor.stack.depth = 0
  rw [e.toMachine.processor_reset.1]
  rfl

/-! ## sequences of calls -/

/-- The number of calls under way is the number of calls less the number of returns
since the processor was last reset. -/
def Balanced (e : Emulator) (instructions : List Instruction) : Prop :=
  (e.processor.stack.depth : Int) =
    instructions.countP (fun i => i.opcode = .call) -
      instructions.countP (fun i => i.opcode = .ret)

theorem Balanced.change {e after : Emulator} {before instructions : List Instruction}
    (he : Balanced e before) (h : DepthChange e.toMachine after.toMachine instructions) :
    Balanced after (before ++ instructions) := by
  unfold Balanced DepthChange at *
  rw [List.countP_append, List.countP_append]
  omega

/-- Sequences of calls keep the bounds and the balance. -/
theorem bounded_serveAll {limit : Int} {e : Emulator} {before : List Instruction}
    (he : e.toMachine.InBounds limit) (hbalance : Balanced e before) (requests : List Request) :
    (e.serveAll requests).toMachine.InBounds limit ∧
      Balanced (e.serveAll requests) (e.sinceReset before requests) := by
  induction requests generalizing e before with
  | nil => exact ⟨he, hbalance⟩
  | cons request rest ih =>
      have hafter := inBounds_serve he request
      by_cases hreset : request = .reset
      · subst hreset
        refine ih hafter ?_
        simp [Balanced, depth_reset]
      · rw [serveAll_cons, sinceReset_cons e before hreset]
        exact ih hafter (hbalance.change (depthChange_serve he hreset))

theorem toMachine_create {stackLimit fontLocation programStart : Option Int} {rng : Rng}
    {log : Log} {e : Emulator}
    (h : Emulator.create stackLimit fontLocation programStart rng log = .ok e) :
    ∃ memory, e.toMachine =
      { Machine.blank (stackLimit.getD Machine.defaultStackLimit)
          (fontLocation.getD Machine.defaultFontLocation)
          (programStart.getD Machine.defaultProgramStart) rng with memory } := by
  unfold Emulator.create at h
  cases hm : Machine.create stackLimit fontLocation programStart rng with
  | error cause => rw [hm] at h; cases h
  | ok m =>
      rw [hm] at h
      cases h
      exact Machine.create_ok hm

/-- A new emulator is within its bounds and has no calls under way. -/
theorem bounded_create {stackLimit fontLocation programStart : Option Int} {rng : Rng}
    {log : Log} {e : Emulator}
    (hcreate : Emulator.create stackLimit fontLocation programStart rng log = .ok e)
    (hstart : IsAddress (programStart.getD Machine.defaultProgramStart)) :
    e.toMachine.InBounds (stackLimit.getD Machine.defaultStackLimit) ∧ Balanced e [] := by
  obtain ⟨memory, hmachine⟩ := toMachine_create hcreate
  have hzero : IsByte 0 := ⟨by decide, by decide⟩
  refine ⟨?_, ?_⟩
  · rw [hmachine]
    exact
      { pc := isAddress_zero
        index := isAddress_zero
        frames := fun a ha => absurd ha List.not_mem_nil
        depth := Int.le_max_right _ 0
        delay := hzero
        sound := hzero
        stackLimit := rfl
        programStart := hstart }
  · unfold Balanced
    rw [hmachine]
    rfl

/-- **Bounds after any calls**: whatever calls are made on a new emulator whose
programs go to an address, with whatever arguments and whether or not they are
refused, every number is within its bounds afterwards, and the number of calls under
way is the number of calls less the number of returns carried out since the
processor was built or last reset. -/
theorem bounded_after_calls {stackLimit fontLocation programStart : Option Int} {rng : Rng}
    {log : Log} {e : Emulator}
    (hcreate : Emulator.create stackLimit fontLocation programStart rng log = .ok e)
    (hstart : IsAddress (programStart.getD Machine.defaultProgramStart))
    (requests : List Request) :
    (e.serveAll requests).toMachine.InBounds (stackLimit.getD Machine.defaultStackLimit) ∧
      ((e.serveAll requests).processor.stack.depth : Int) =
        (e.sinceReset [] requests).countP (fun i => i.opcode = .call) -
          (e.sinceReset [] requests).countP (fun i => i.opcode = .ret) := by
  obtain ⟨hbounds, hbalance⟩ := bounded_create hcreate hstart
  exact bounded_serveAll hbounds hbalance requests

theorem bounded_after_refused_calls :
    ∃ e, Emulator.create (some 1) none (some 0xFFE) (Rng.cycle []) .off = .ok e ∧
      IsAddress ((some 0xFFE).getD Machine.defaultProgramStart) ∧
      (e.serveAll [.loadWords [0x2FFE], .run (some 3), .keyDown 99, .installFont (some 5000),
        .reset, .tick]).toMachine.InBounds 1 := by
  have hstart : IsAddress ((some 0xFFE).getD Machine.defaultProgramStart) :=
    ⟨by decide, by decide⟩
  refine ⟨_, rfl, hstart, ?_⟩
  exact (@bounded_after_calls (some 1) none (some 0xFFE) (Rng.cycle []) .off _ rfl hstart _).1

end Emulator

end Chip8
