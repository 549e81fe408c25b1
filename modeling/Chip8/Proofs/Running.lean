import Chip8.Proofs.Halting
import Chip8.Proofs.History

/-!
# Chip8.Proofs.Running

Invariants of a machine that is left to run.  While it takes steps, goes through runs and has ticks
and key events delivered, all that a program can do to it is done by its steps.  So a property that
ticks and keys do not affect holds for as long as the steps that are taken keep it
(`Machine.KeptBy`): after each call, and before each single step within a run (`keptBy_runOn`,
`keptBy_serve`, `keptBy_serveAll`).
-/

namespace Chip8

/-- Steps, runs, ticks and events of any keys. -/
def Request.isRunning : Request → Prop
  | .run _ => True
  | request => request.isHook

/-- Steps of some kind keep a property of machines, and so do all ticks and keys. -/
structure Machine.KeptBy (allowed P : Machine → Prop) : Prop where
  step {m : Machine} (hm : P m) (h : allowed m) : P m.step.2
  tick {m : Machine} (hm : P m) : P (m.onProcessor Processor.tick)
  keys {m : Machine} (hm : P m) (keypad : Keypad) : P { m with keypad }

namespace Emulator

variable {allowed P : Machine → Prop}

/-- A run keeps what its steps keep. -/
theorem keptBy_runOn (hstep : ∀ {m : Machine}, P m → allowed m → P m.step.2) {e : Emulator}
    (he : P e.toMachine) (done limit : Nat)
    (hallowed : ∀ f ∈ e.stepsOn limit, allowed f.toMachine) :
    P (e.runOn done limit).2.toMachine ∧ ∀ f ∈ e.stepsOn limit, P f.toMachine := by
  induction limit generalizing e done with
  | zero => exact ⟨he, by simp [stepsOn]⟩
  | succ limit ih =>
      have hafter : allowed e.toMachine → P e.step.2.toMachine := by
        rw [e.step_toMachine]
        exact hstep he
      rw [stepsOn] at hallowed ⊢
      rw [runOn_succ]
      generalize e.step = r at hafter hallowed ⊢
      obtain ⟨answer, after⟩ := r
      match answer with
      | .ok true =>
          obtain ⟨hfirst, hrest⟩ := List.forall_mem_cons.1 hallowed
          obtain ⟨hend, hsteps⟩ := ih (hafter hfirst) (done + 1) hrest
          exact ⟨hend, List.forall_mem_cons.2 ⟨he, hsteps⟩⟩
      | .ok false | .error cause =>
          -- the step that ends the run was taken, too
          exact ⟨hafter (hallowed e List.mem_cons_self), by simpa using he⟩

/-- A call that lets the machine run keeps what its steps keep. -/
theorem keptBy_serve (hkept : Machine.KeptBy allowed P) {e : Emulator} (he : P e.toMachine)
    {request : Request} (hrunning : request.isRunning)
    (hallowed : ∀ f ∈ e.stepsOf request, allowed f.toMachine) :
    P (e.serve request).2.toMachine ∧ ∀ f ∈ e.stepsOf request, P f.toMachine := by
  have hkey := @serve_key e request
  cases request with
  | step =>
      refine ⟨?_, by simpa [stepsOf] using he⟩
      change P e.step.2.toMachine
      rw [e.step_toMachine]
      exact hkept.step he (hallowed e List.mem_cons_self)
  | run limit =>
      rw [serve, run_eq]
      exact keptBy_runOn hkept.step he 0 (runLimit limit) hallowed
  | tick => exact ⟨hkept.tick he, by simp [stepsOf]⟩
  | keyDown index | keyUp index =>
      obtain ⟨-, keypad, hmoved⟩ := hkey rfl
      rw [hmoved]
      exact ⟨hkept.keys he keypad, by simp [stepsOf]⟩
  | _ => exact hrunning.elim

/-- Calls that let the machine run keep what its steps keep. -/
theorem keptBy_serveAll (hkept : Machine.KeptBy allowed P) {e : Emulator} (he : P e.toMachine)
    {requests : List Request} (hrunning : ∀ request ∈ requests, request.isRunning)
    (hallowed : ∀ f ∈ e.allSteps requests, allowed f.toMachine) :
    P (e.serveAll requests).toMachine ∧ ∀ f ∈ e.allSteps requests, P f.toMachine := by
  induction requests generalizing e with
  | nil => exact ⟨he, by simp [allSteps]⟩
  | cons request rest ih =>
      obtain ⟨hfirst, hrunning_rest⟩ := List.forall_mem_cons.1 hrunning
      rw [allSteps, List.forall_mem_append] at hallowed
      obtain ⟨hserve, hsteps⟩ := keptBy_serve hkept he hfirst hallowed.1
      obtain ⟨hend, hsteps_rest⟩ := ih hserve hrunning_rest hallowed.2
      rw [allSteps, List.forall_mem_append]
      exact ⟨hend, hsteps, hsteps_rest⟩

end Emulator

end Chip8
