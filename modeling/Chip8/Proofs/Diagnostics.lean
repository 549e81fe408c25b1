import Chip8.Proofs.Congruence
import Chip8.Proofs.Core
import Chip8.Proofs.Footprint

/-!
# Chip8.Proofs.Diagnostics

What a machine only reports has no influence on what it does.  The sound timer, the mark of the
screen and the notes about the last step are there for whoever watches; `Machine.unmarked` leaves
them out.  Machines that differ in nothing else are a congruence, `unmarked_congruence`: an
instruction does not see the core of the difference (`perform_congr`), and keeps or sets the delay
timer on both (`dt_congr`).

So any calls have the same answers, up to what is left on the sound timer, and the states they lead
to differ in nothing else.  A step writes its notes about halting anew if it is answered; one that
is refused leaves what was there.
-/

namespace Chip8

/-- The answer without what is left on the sound timer. -/
def Answer.silent : Answer → Answer
  | timers delay _ => timers delay 0
  | answer => answer

namespace Machine

/-- The machine without its sound timer, the mark of its screen, and notes about the last step. -/
def unmarked (m : Machine) : Machine :=
  { m with
    processor := { m.processor with st := 0 }
    screen := m.screen.shown
    lastOp := none
    haltReason := none
    haltWord := none }

section Unmarked

variable (m : Machine)

@[simp] theorem core_unmarked : m.unmarked.core = m.core := rfl

@[simp] theorem memory_unmarked : m.unmarked.memory = m.memory := rfl

@[simp] theorem pc_unmarked : m.unmarked.processor.pc = m.processor.pc := rfl

@[simp] theorem dt_unmarked : m.unmarked.processor.dt = m.processor.dt := rfl

@[simp] theorem keypad_unmarked : m.unmarked.keypad = m.keypad := rfl

@[simp] theorem fontLocation_unmarked : m.unmarked.fontLocation = m.fontLocation := rfl

@[simp] theorem programStart_unmarked : m.unmarked.programStart = m.programStart := rfl

end Unmarked

/-- Machines that differ in nothing but what they report have one core, the same delay and the
same keys. -/
theorem unmarked_eq_iff {m n : Machine} :
    m.unmarked = n.unmarked ↔
      m.core = n.core ∧ m.processor.dt = n.processor.dt ∧ m.keypad = n.keypad := by
  constructor
  · intro h
    have hcore := congrArg core h
    have hdelay := congrArg (·.processor.dt) h
    have hkeys := congrArg keypad h
    simp only [core_unmarked, dt_unmarked, keypad_unmarked] at hcore hdelay hkeys
    exact ⟨hcore, hdelay, hkeys⟩
  · rintro ⟨hcore, hdelay, hkeys⟩
    have hdressed (m : Machine) : m.unmarked =
        { m.core with
          processor := { m.core.processor with dt := m.processor.dt }
          keypad := m.keypad } := rfl
    rw [hdressed m, hdressed n, hcore, hdelay, hkeys]

/-! ## instructions -/

/-- The delay timer after an instruction is the one before it, or comes from a register. -/
theorem dt_congr {m n after after' : Machine} {i : Instruction} (hcore : m.core = n.core)
    (hdelay : m.processor.dt = n.processor.dt) (hm : m.perform i = .ok after)
    (hn : n.perform i = .ok after') : after.processor.dt = after'.processor.dt := by
  by_cases hop : i.opcode = .setDelay
  · obtain ⟨op, x⟩ := i
    obtain rfl : op = .setDelay := hop
    have hreg : m.core.reg x = n.core.reg x := by rw [hcore]
    obtain rfl := Except.ok.inj hm
    obtain rfl := Except.ok.inj hn
    change ((m.core.reg x).toNat : Int) = (n.core.reg x).toNat
    rw [hreg]
  · rw [delay_perform hm hop, delay_perform hn hop, hdelay]

theorem perform_unmarked {m n : Machine} (h : m.unmarked = n.unmarked) (i : Instruction) :
    SameUpTo (fun m n => m.unmarked = n.unmarked) (m.perform i) (n.perform i) := by
  obtain ⟨hcore, hdelay, hkeys⟩ := unmarked_eq_iff.1 h
  have hcongr := perform_congr (i := i) hcore (fun _ => hdelay) fun _ => hkeys
  rcases cases_of_map_eq hcongr with ⟨stop, hm, hn⟩ | ⟨after, after', hm, hn, hcore_after⟩
  · rw [hm, hn]
    exact .error stop
  · have hdelay_after := dt_congr hcore hdelay hm hn
    have hkeys_after : after.keypad = after'.keypad := by
      rw [(kept_of_perform hm).keypad, (kept_of_perform hn).keypad, hkeys]
    rw [hm, hn]
    exact .ok (unmarked_eq_iff.2 ⟨hcore_after, hdelay_after, hkeys_after⟩)

/-! ## other calls -/

/-- What does not depend on the marks does the same to machines that differ in nothing else. -/
theorem congr_of_unmarked {α : Type} (f : Machine → α × Machine)
    (hf : ∀ m, (f m.unmarked).1 = (f m).1 ∧ (f m.unmarked).2.unmarked = (f m).2.unmarked)
    {m n : Machine} (h : m.unmarked = n.unmarked) :
    (f m).1 = (f n).1 ∧ (f m).2.unmarked = (f n).2.unmarked := by
  obtain ⟨hm, hm_after⟩ := hf m
  obtain ⟨hn, hn_after⟩ := hf n
  rw [← hm, ← hn, ← hm_after, ← hn_after, h]
  exact ⟨rfl, rfl⟩

theorem installFont_unmarked (location : Option Int) (m : Machine) :
    (m.unmarked.installFont location).1 = (m.installFont location).1 ∧
      (m.unmarked.installFont location).2.unmarked = (m.installFont location).2.unmarked := by
  unfold installFont
  simp only [memory_unmarked, fontLocation_unmarked]
  cases m.memory.installFont (location.getD m.fontLocation) <;> exact ⟨rfl, rfl⟩

theorem reset_unmarked (m : Machine) :
    m.unmarked.reset.1 = m.reset.1 ∧ m.unmarked.reset.2.unmarked = m.reset.2.unmarked := by
  -- the two sides clear machines that differ in their marks, so not even these are the same
  have hcleared : m.unmarked.cleared.unmarked = m.cleared.unmarked := rfl
  have hinstall := congr_of_unmarked (·.installFont none) (installFont_unmarked none) hcleared
  unfold reset
  generalize m.unmarked.cleared.installFont none = r, m.cleared.installFont none = s at hinstall ⊢
  obtain ⟨answer, after⟩ := r
  obtain ⟨answer', after'⟩ := s
  obtain ⟨rfl, hafter⟩ : answer = answer' ∧ after.unmarked = after'.unmarked := hinstall
  cases answer with
  | ok => exact ⟨rfl, congrArg (fun m => m.quieted.unmarked) hafter⟩
  | error cause => exact ⟨rfl, hafter⟩

/-- What differs in nothing but marks goes on to, whatever is called. -/
theorem unmarked_congruence : Congruence Answer.silent fun m n => m.unmarked = n.unmarked where
  perform := perform_unmarked
  installFont h location := congr_of_unmarked (·.installFont location) (installFont_unmarked location) h
  reset h := congr_of_unmarked reset reset_unmarked h
  memory h := by simpa using congrArg memory h
  pc h := by simpa using congrArg (·.processor.pc) h
  programStart h := by simpa using congrArg programStart h
  keypad h := by simpa using congrArg keypad h
  timers h := by
    have hdelay := (unmarked_eq_iff.1 h).2.1
    simp [Answer.silent, Processor.tick, hdelay]
  withLastOp h _ := h
  withHalt h _ _ := h
  withProgram h bytes := congrArg (·.withProgram bytes) h
  withKeypad h keypad := congrArg ({ · with keypad }) h
  tick h := congrArg (fun m => (m.onProcessor Processor.tick).unmarked) h

end Machine

namespace Emulator

open Machine

/-- **Diagnostic state has no influence**: any calls have the same answers, up to what is left on
the sound timer, on emulators that differ in nothing but their sound timers, the marks of their
screens and the notes about the last step, and the emulators after them differ in nothing else
either.  They take the same steps, with the same answers; each step that is answered leaves the
same notes about halting. -/
theorem diagnostics_unseen {e f : Emulator} (h : e.toMachine.unmarked = f.toMachine.unmarked)
    (requests : List Request) :
    (e.answers requests).map (·.map Answer.silent) =
        (f.answers requests).map (·.map Answer.silent) ∧
      (e.serveAll requests).toMachine.unmarked = (f.serveAll requests).toMachine.unmarked ∧
      List.Forall₂
        (fun g g' => g.step.1 = g'.step.1 ∧
          g.step.2.toMachine.unmarked = g'.step.2.toMachine.unmarked ∧
          ∀ goesOn, g.step.1 = .ok goesOn →
            g.step.2.haltReason = g'.step.2.haltReason ∧ g.step.2.haltWord = g'.step.2.haltWord)
        (e.allSteps requests) (f.allSteps requests) := by
  obtain ⟨hanswers, hafter, hsteps⟩ := unmarked_congruence.serveAll h requests
  refine ⟨hanswers, hafter, hsteps.imp ?_⟩
  intro g g' hsame
  have hstep := unmarked_congruence.step hsame
  rw [← g.step_fst, ← g'.step_fst, ← g.step_toMachine, ← g'.step_toMachine] at hstep
  exact hstep

/-- An emulator that is to copy a delay timer which holds no byte. -/
def overdue : Emulator :=
  let m := Machine.blank 16 0 0x200 (Rng.cycle [])
  { toMachine :=
      { m with
        memory := ⟨(m.memory.bytes.set 0 0xF0).set 1 0x07, 0⟩
        processor := { m.processor with dt := 300 } }
    log := .off }

/-- The emulator after a return that was handed over and had nothing to go back to. -/
def overdueHalted : Emulator := (overdue.execute (.operation { opcode := .ret })).2

/-- The delay timer is put right, and the sound timer runs on one of the two. -/
theorem diagnostics_unseen_halted :
    let e := { overdue with processor := { overdue.processor with dt := 9 } }
    let f := { overdueHalted with processor := { overdueHalted.processor with dt := 9, st := 7 } }
    let requests : List Request :=
      [.step, .tick, .keyDown 3, .loadWords [0xF015, 0xD005, 0x00EE], .run (some 9)]
    e.toMachine.unmarked = f.toMachine.unmarked ∧ e.haltReason ≠ f.haltReason ∧
      (e.allSteps requests).map (·.step.1) = [.ok true, .ok true, .ok true, .ok false] ∧
      (e.answers requests).map (·.map Answer.silent) =
        (f.answers requests).map (·.map Answer.silent) ∧
      List.Forall₂ (fun g g' => ∀ goesOn, g.step.1 = .ok goesOn →
          g.step.2.haltReason = g'.step.2.haltReason ∧ g.step.2.haltWord = g'.step.2.haltWord)
        (e.allSteps requests) (f.allSteps requests) := by
  intro e f requests
  have hsame : e.toMachine.unmarked = f.toMachine.unmarked := rfl
  have hnotes : e.haltReason ≠ f.haltReason := by decide +kernel
  have htaken : (e.allSteps requests).map (·.step.1) = [.ok true, .ok true, .ok true, .ok false] := by
    decide +kernel
  obtain ⟨hanswers, -, hsteps⟩ := diagnostics_unseen hsame requests
  exact ⟨hsame, hnotes, htaken, hanswers, hsteps.imp fun _ _ h => h.2.2⟩

/-- A step that is refused leaves whatever notes about halting there were: not every step leaves
the same notes on emulators that differ in nothing but what they report. -/
theorem refused_step_keeps_notes :
    ¬∀ e f : Emulator, e.toMachine.unmarked = f.toMachine.unmarked → ∀ requests : List Request,
      List.Forall₂ (fun g g' => g.step.2.haltReason = g'.step.2.haltReason ∧
          g.step.2.haltWord = g'.step.2.haltWord)
        (e.allSteps requests) (f.allSteps requests) := by
  intro h
  have hsame : overdue.toMachine.unmarked = overdueHalted.toMachine.unmarked := rfl
  have hsteps := h overdue overdueHalted hsame [.step]
  simp only [allSteps, stepsOf, List.append_nil, List.forall₂_cons, List.forall₂_nil_left_iff,
    and_true] at hsteps
  have hdiffer : overdue.step.2.haltReason ≠ overdueHalted.step.2.haltReason := by decide +kernel
  exact hdiffer hsteps.1

end Emulator

end Chip8
