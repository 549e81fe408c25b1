import Chip8.Proofs.Bounds
import Chip8.Proofs.Footprint
import Chip8.Proofs.Running

/-!
# Chip8.Proofs.Timers

The timers count the ticks of the host and nothing else.  The two are alike, and `Timer` is either
of them.  Only the instruction that starts a timer works on it (`left_perform`), so between two
starts a step leaves it alone, whether the machine goes on or has halted (`left_step`), and a tick
takes one off what is left (`left_serve`).  It follows by induction on the calls that there is left
what the timer was started with less the number of ticks, or nothing (`left_serveAll`).
-/

namespace Chip8

/-- Either of the two timers. -/
inductive Timer
  | delay
  | sound

namespace Timer

/-- What is left on a timer. -/
def left (m : Machine) : Timer → Int
  | delay => m.processor.dt
  | sound => m.processor.st

/-- The opcode that starts a timer. -/
def starter : Timer → Opcode
  | delay => .setDelay
  | sound => .setSound

/-- The instruction that starts a timer from a register. -/
def start (x : Register) : Timer → Instruction
  | delay => ⟨.setDelay, x⟩
  | sound => ⟨.setSound, x⟩

end Timer

/-- Whether a call is a tick. -/
def Request.isTick : Request → Bool
  | .tick => true
  | _ => false

namespace Machine

open Timer

variable {t : Timer}

/-! ## instructions -/

/-- Only the instruction that starts a timer works on it. -/
theorem left_perform {m after : Machine} {i : Instruction} (h : m.perform i = .ok after)
    (hop : i.opcode ≠ t.starter) : t.left after = t.left m := by
  cases t with
  | delay => exact delay_perform h hop
  | sound => exact sound_perform h hop

/-- A timer is started with the value of the register. -/
theorem left_perform_start {m after : Machine} {x : Register}
    (h : m.perform (t.start x) = .ok after) : t.left after = (m.reg x).toNat := by
  cases t with
  | delay | sound =>
      obtain rfl := Except.ok.inj h
      rfl

/-- What is left on the delay timer is copied to a register, if it is a byte. -/
theorem exists_getDelay {m : Machine} (h : IsByte m.processor.dt) (y : Register) :
    ∃ after, m.perform ⟨.getDelay, y⟩ = .ok after ∧ ((after.reg y).toNat : Int) = m.processor.dt := by
  refine ⟨(m.onProcessor (·.setV y (lowByte m.processor.dt))).next, ?_, ?_⟩
  · simp only [perform, Processor.getDelay, byte?_of_isByte h]
    rfl
  · have hcopied : ((m.onProcessor (·.setV y (lowByte m.processor.dt))).next).reg y =
        lowByte m.processor.dt := Vector.getElem_set_self _
    rw [hcopied, toNat_lowByte h, Int.toNat_of_nonneg h.1]

/-! ## steps -/

/-- A step that does not start a timer leaves it alone. -/
theorem left_step {m : Machine} (h : ∀ i ∈ m.upcoming, i.opcode ≠ t.starter) :
    t.left m.step.2 = t.left m := by
  have hstep := m.stepped_step
  generalize m.step = r at hstep ⊢
  cases hstep with
  | @carriedOut word i after hword hi hperform =>
      have hleft := left_perform (m := m.found i) hperform (h i (upcoming_of_fetch hword hi))
      cases t with
      | delay | sound => exact hleft
  | endOfMemory | invalid | halted | faulted => cases t <;> rfl

end Machine

namespace Emulator

open Machine Timer

variable {t : Timer}

/-! ## calls -/

/-- A call takes one off what is left if it is a tick, and leaves the timer alone otherwise. -/
theorem left_serve {e : Emulator} {request : Request} (hrunning : request.isRunning)
    (h : ∀ f ∈ e.stepsOf request, ∀ i ∈ f.upcoming, i.opcode ≠ t.starter) :
    t.left (e.serve request).2.toMachine =
      if request.isTick then max 0 (t.left e.toMachine - 1) else t.left e.toMachine := by
  have hkey := @serve_key e request
  cases request with
  | step =>
      change t.left e.step.2.toMachine = t.left e.toMachine
      rw [e.step_toMachine]
      exact left_step (h e List.mem_cons_self)
  | run limit =>
      rw [serve, run_eq]
      exact (keptBy_runOn (P := fun m => t.left m = t.left e.toMachine)
        (fun hm hstep => (left_step hstep).trans hm) rfl 0 (runLimit limit) h).1
  | tick => cases t <;> rfl
  | keyDown index | keyUp index =>
      obtain ⟨-, keypad, hmoved⟩ := hkey rfl
      rw [hmoved]
      cases t <;> rfl
  | _ => exact hrunning.elim

/-- Any number of calls take off one for each tick among them, down to zero. -/
theorem left_serveAll {e : Emulator} (hleft : 0 ≤ t.left e.toMachine) {requests : List Request}
    (hrunning : ∀ request ∈ requests, request.isRunning)
    (h : ∀ f ∈ e.allSteps requests, ∀ i ∈ f.upcoming, i.opcode ≠ t.starter) :
    t.left (e.serveAll requests).toMachine =
      max 0 (t.left e.toMachine - requests.countP Request.isTick) := by
  induction requests generalizing e with
  | nil =>
      rw [List.countP_nil, Int.natCast_zero, Int.sub_zero]
      exact (Int.max_eq_right hleft).symm
  | cons request rest ih =>
      obtain ⟨hfirst, hrunning_rest⟩ := List.forall_mem_cons.1 hrunning
      rw [allSteps, List.forall_mem_append] at h
      have hserve := left_serve hfirst h.1
      cases htick : request.isTick with
      | true =>
          rw [htick, if_pos rfl] at hserve
          rw [serveAll_cons, ih (by omega) hrunning_rest h.2, hserve,
            List.countP_cons_of_pos htick]
          omega
      | false =>
          rw [htick, if_neg Bool.false_ne_true] at hserve
          rw [serveAll_cons, ih (by omega) hrunning_rest h.2, hserve,
            List.countP_cons_of_neg (by simp [htick])]

/-- An instruction is carried out, because it is handed over or because a step comes across it. -/
def CarriesOut (e : Emulator) (i : Instruction) (after : Emulator) : Prop :=
  e.execute (.ofInstruction i) = (.ok true, after) ∨
    e.upcoming = some i ∧ e.step = (.ok true, after)

/-- Either way the instruction is carried out, and notes may be added. -/
theorem perform_of_carriesOut {e after : Emulator} {i : Instruction} (h : e.CarriesOut i after) :
    ∃ m op reason word, e.toMachine.perform i = .ok m ∧
      after.toMachine = m.withNotes op reason word := by
  rcases h with h | ⟨hi, h⟩
  · obtain ⟨j, hj, hperform⟩ := perform_of_execute h
    have hsame : i = j := Except.ok.inj
      ((Item.check_ofInstruction i).symm.trans (hj ▸ Item.check_ofInstruction j))
    subst hsame
    exact ⟨_, _, _, _, hperform, rfl⟩
  · have hstep := machine_step_of_step h
    cases hperform : e.toMachine.perform i with
    | ok m =>
        rw [step_of_perform_ok hi hperform] at hstep
        exact ⟨m, _, _, _, rfl, (Prod.mk.inj hstep).2.symm⟩
    | error stop =>
        obtain ⟨word, j, final, hword, hj, hfinal, -, -⟩ := carriedOut_of_step hstep
        obtain rfl : i = j := Option.some.inj (hi.symm.trans (upcoming_of_fetch hword hj))
        rw [perform_found, hperform] at hfinal
        cases hfinal

/-- **Timers count ticks**: after a timer was started from a register, and then any steps, runs,
ticks and key events among which it is not started again, there is left on it what the register held
less the number of ticks, or nothing if there were more of these.  What is left on the delay timer
can then be copied to any register, and that is what this holds afterwards. -/
theorem timers_count_ticks {x : Register} {e started : Emulator}
    (hstart : e.CarriesOut (t.start x) started) {requests : List Request}
    (hrunning : ∀ request ∈ requests, request.isRunning)
    (h : ∀ f ∈ started.allSteps requests, ∀ i ∈ f.upcoming, i.opcode ≠ t.starter) :
    let later := started.serveAll requests
    let left := max 0 ((e.reg x).toNat - requests.countP Request.isTick : Int)
    t.left later.toMachine = left ∧
      (t = .delay → ∀ y : Register,
        (∃ after, later.execute (.ofInstruction ⟨.getDelay, y⟩) = (.ok true, after)) ∧
          ∀ after, later.CarriesOut ⟨.getDelay, y⟩ after → ((after.reg y).toNat : Int) = left) := by
  intro later left
  obtain ⟨m, op, reason, word, hperform, hnoted⟩ := perform_of_carriesOut hstart
  have hinitial : t.left started.toMachine = (e.reg x).toNat := by
    have hleft := left_perform_start hperform
    rw [hnoted]
    cases t with
    | delay | sound => exact hleft
  have hlater : t.left later.toMachine = left := by
    have hcount := left_serveAll (by omega) hrunning h
    rwa [hinitial] at hcount
  refine ⟨hlater, ?_⟩
  rintro rfl y
  have hbyte : IsByte later.processor.dt := by
    have hregister := (e.reg x).toNat_lt
    change later.processor.dt = left at hlater
    unfold IsByte
    omega
  obtain ⟨copied, hcopy, hvalue⟩ := exists_getDelay hbyte y
  refine ⟨⟨_, execute_of_perform hcopy⟩, fun after hafter => ?_⟩
  obtain ⟨m', op', reason', word', hperform', hnoted'⟩ := perform_of_carriesOut hafter
  obtain rfl := Except.ok.inj (hcopy.symm.trans hperform')
  rw [hnoted']
  exact hvalue.trans hlater

/-- An emulator that starts its delay timer from V3, adds to V0, and then halts. -/
def starting : Emulator :=
  let m := Machine.blank 0 0 0x200 (Rng.cycle [])
  let start := (m.memory.bytes.set 0x200 0xF3).set 0x201 0x15
  { toMachine :=
      { m with
        memory := ⟨(start.set 0x202 0x70).set 0x203 1, 0⟩
        processor := { m.processor with v := .replicate 16 5, pc := 0x200 } }
    log := .off }

/-- Two ticks before the machine halts and one after it leave two of five. -/
theorem timers_count_ticks_starting :
    let started := starting.step.2
    let requests : List Request := [.tick, .step, .tick, .keyDown 99, .run (some 2), .tick]
    starting.CarriesOut (Timer.delay.start 3) started ∧
      (∀ request ∈ requests, request.isRunning) ∧
      (∀ f ∈ started.allSteps requests, ∀ i ∈ f.upcoming, i.opcode ≠ Timer.delay.starter) ∧
      (started.allSteps requests).map (·.step.1) = [.ok true, .ok false] ∧
      (started.serveAll requests).processor.dt = 2 ∧
      ∃ after, (started.serveAll requests).execute (.ofInstruction ⟨.getDelay, (1 : Register)⟩) =
          (.ok true, after) ∧ (after.reg 1).toNat = 2 := by
  intro started requests
  have hstart : starting.CarriesOut (Timer.delay.start 3) started := by
    have htrue : starting.step.1 = .ok true := by decide +kernel
    have hstep : starting.step = (.ok true, starting.step.2) := by rw [← htrue, Prod.eta]
    exact .inr ⟨by decide +kernel, hstep⟩
  have hrunning : ∀ request ∈ requests, request.isRunning := by
    simp [requests, Request.isRunning, Request.isHook]
  have hnone : ∀ f ∈ started.allSteps requests, ∀ i ∈ f.upcoming,
      i.opcode ≠ Timer.delay.starter := by decide +kernel
  have hsteps : (started.allSteps requests).map (·.step.1) = [.ok true, .ok false] := by
    decide +kernel
  have htwo : max 0 ((starting.reg 3).toNat - requests.countP Request.isTick : Int) = 2 := by
    decide +kernel
  have hticks := timers_count_ticks hstart hrunning hnone
  rw [htwo] at hticks
  obtain ⟨hleft, hcopy⟩ := hticks
  obtain ⟨⟨after, hafter⟩, hvalue⟩ := hcopy rfl 1
  have hregister : (after.reg 1).toNat = 2 := Int.ofNat.inj (hvalue after (.inl hafter))
  exact ⟨hstart, hrunning, hnone, hsteps, hleft, after, hafter, hregister⟩

end Emulator

end Chip8
