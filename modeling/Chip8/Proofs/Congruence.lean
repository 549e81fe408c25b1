import Mathlib.Data.List.Forall2
import Chip8.Proofs.History

/-!
# Chip8.Proofs.Congruence

Two emulators side by side.  A relation between machines is a `Congruence` if related machines
fetch the same words, and if whatever instructions, timers, keys and the rest of what calls are
made of do to one of two related machines, they do to the other.  Answers are compared by what a
`view` shows of them.

Then steps, runs and all other calls keep related machines related: `Congruence.step`,
`Congruence.runOn`, `Congruence.serve` and `Congruence.serveAll`.  The steps of the two are taken
from related machines, and a step that is answered leaves the same notes about halting.
-/

namespace Chip8

/-- Two results are the same refusal, or answers that are related. -/
inductive SameUpTo {ε α : Type} (R : α → α → Prop) : Except ε α → Except ε α → Prop
  | ok {a b : α} (h : R a b) : SameUpTo R (.ok a) (.ok b)
  | error (cause : ε) : SameUpTo R (.error cause) (.error cause)

namespace Emulator

/-- The answers are the same, and the machines after them related; what the logs hold has no
influence. -/
def AnsweredUpTo {α : Type} (R : Machine → Machine → Prop) (r s : α × Emulator) : Prop :=
  r.1 = s.1 ∧ R r.2.toMachine s.2.toMachine

/-- Whatever kind of answer is made of an answer, it is made of the same one. -/
theorem AnsweredUpTo.map {α β : Type} {R : Machine → Machine → Prop}
    {r s : Except Fault α × Emulator} (h : AnsweredUpTo R r s) (answer : α → β) :
    AnsweredUpTo R (r.1.map answer, r.2) (s.1.map answer, s.2) :=
  ⟨congrArg (Except.map answer) h.1, h.2⟩

/-- Calls that are refused leave the machines alone. -/
theorem AnsweredUpTo.settle {R : Machine → Machine → Prop} {e f : Emulator}
    (h : R e.toMachine f.toMachine) {r s : Except Fault Emulator}
    (hrs : SameUpTo (fun e f => R e.toMachine f.toMachine) r s) :
    AnsweredUpTo R (e.settle r) (f.settle s) := by
  cases hrs with
  | ok hafter => exact ⟨rfl, hafter⟩
  | error cause => exact ⟨rfl, h⟩

end Emulator

namespace Machine

open Emulator

/-- Nothing that a call is made of tells related machines apart, as far as the view goes. -/
structure Congruence (view : Answer → Answer) (R : Machine → Machine → Prop) : Prop where
  memory {m n : Machine} : R m n → m.memory = n.memory
  pc {m n : Machine} : R m n → m.processor.pc = n.processor.pc
  programStart {m n : Machine} : R m n → m.programStart = n.programStart
  keypad {m n : Machine} : R m n → m.keypad = n.keypad
  perform {m n : Machine} : R m n → ∀ i, SameUpTo R (m.perform i) (n.perform i)
  withLastOp {m n : Machine} : R m n → ∀ lastOp, R { m with lastOp } { n with lastOp }
  withHalt {m n : Machine} : R m n → ∀ haltReason haltWord,
    R { m with haltReason, haltWord } { n with haltReason, haltWord }
  withProgram {m n : Machine} : R m n → ∀ bytes, R (m.withProgram bytes) (n.withProgram bytes)
  withKeypad {m n : Machine} : R m n → ∀ keypad, R { m with keypad } { n with keypad }
  timers {m n : Machine} : R m n →
    view (.timers m.processor.tick.dt m.processor.tick.st) =
      view (.timers n.processor.tick.dt n.processor.tick.st)
  tick {m n : Machine} : R m n → R (m.onProcessor Processor.tick) (n.onProcessor Processor.tick)
  installFont {m n : Machine} : R m n → ∀ location,
    (m.installFont location).1 = (n.installFont location).1 ∧
      R (m.installFont location).2 (n.installFont location).2
  reset {m n : Machine} : R m n → m.reset.1 = n.reset.1 ∧ R m.reset.2 n.reset.2

namespace Congruence

variable {view : Answer → Answer} {R : Machine → Machine → Prop} (hR : Congruence view R)
variable {m n : Machine} {e f : Emulator}

include hR

theorem fetch (h : R m n) : m.fetch = n.fetch := by
  unfold Machine.fetch
  rw [hR.memory h, hR.pc h]

/-! ## steps -/

/-- A step has the same answer on both and leaves related machines; if it is answered, it leaves
the same notes about halting. -/
theorem step (h : R m n) :
    m.step.1 = n.step.1 ∧ R m.step.2 n.step.2 ∧
      ∀ goesOn, m.step.1 = .ok goesOn →
        m.step.2.haltReason = n.step.2.haltReason ∧ m.step.2.haltWord = n.step.2.haltWord := by
  unfold Machine.step
  rw [← hR.fetch h]
  cases m.fetch with
  | none => exact ⟨rfl, hR.withHalt h _ _, fun _ _ => ⟨rfl, rfl⟩⟩
  | some word =>
      dsimp only
      cases Instruction.ofWord? word with
      | none => exact ⟨rfl, hR.withHalt (hR.withLastOp h none) _ _, fun _ _ => ⟨rfl, rfl⟩⟩
      | some i =>
          have hfound : R (m.found i) (n.found i) := hR.withLastOp h (some i)
          have hperform := hR.perform hfound i
          dsimp only
          generalize (m.found i).perform i = result, (n.found i).perform i = result' at hperform ⊢
          cases hperform with
          | ok hafter => exact ⟨rfl, hR.withHalt hafter none none, fun _ _ => ⟨rfl, rfl⟩⟩
          | error stop =>
              cases stop with
              | halt reason => exact ⟨rfl, hR.withHalt hfound _ _, fun _ _ => ⟨rfl, rfl⟩⟩
              | fault cause =>
                  -- nothing is noted here, so what was noted before may still differ
                  exact ⟨rfl, hfound, fun _ hok => by cases hok⟩

/-! ## calls -/

theorem emulator_step (h : R e.toMachine f.toMachine) :
    AnsweredUpTo R e.step f.step := by
  obtain ⟨hanswer, hafter, -⟩ := hR.step h
  unfold AnsweredUpTo
  rw [e.step_fst, f.step_fst, e.step_toMachine, f.step_toMachine]
  exact ⟨hanswer, hafter⟩

/-- Runs carry out as many instructions on both, and take their steps from related machines. -/
theorem runOn (h : R e.toMachine f.toMachine) (done limit : Nat) :
    AnsweredUpTo R (e.runOn done limit) (f.runOn done limit) ∧
      List.Forall₂ (fun e f => R e.toMachine f.toMachine) (e.stepsOn limit) (f.stepsOn limit) := by
  induction limit generalizing e f done with
  | zero => exact ⟨⟨rfl, h⟩, .nil⟩
  | succ limit ih =>
      have hstep := hR.emulator_step h
      rw [runOn_succ, runOn_succ, stepsOn, stepsOn]
      generalize e.step = r, f.step = s at hstep ⊢
      obtain ⟨answer, after⟩ := r
      obtain ⟨answer', after'⟩ := s
      obtain ⟨rfl, hafter⟩ : answer = answer' ∧ R after.toMachine after'.toMachine := hstep
      match answer with
      | .ok true =>
          obtain ⟨hrest, hsteps⟩ := ih hafter (done + 1)
          exact ⟨hrest, .cons h hsteps⟩
      | .ok false | .error cause => exact ⟨⟨rfl, hafter⟩, .cons h .nil⟩

theorem carryOut (h : R e.toMachine f.toMachine) (i : Instruction) :
    AnsweredUpTo R (e.carryOut i) (f.carryOut i) := by
  have hperform := hR.perform h i
  generalize he : e.toMachine.perform i = r, hf : f.toMachine.perform i = s at hperform
  cases hperform with
  | ok hafter =>
      rw [carryOut_of_ok he, carryOut_of_ok hf]
      exact ⟨rfl, hafter⟩
  | error stop =>
      cases stop with
      | halt reason =>
          obtain ⟨hanswer, hafter⟩ := carryOut_of_halt he
          obtain ⟨hanswer', hafter'⟩ := carryOut_of_halt hf
          unfold AnsweredUpTo
          rw [hanswer, hanswer', hafter, hafter']
          exact ⟨rfl, hR.withHalt h _ _⟩
      | fault cause =>
          rw [carryOut_of_fault he, carryOut_of_fault hf]
          exact ⟨rfl, h⟩

theorem execute (h : R e.toMachine f.toMachine) (item : Item) :
    AnsweredUpTo R (e.execute item) (f.execute item) := by
  unfold Emulator.execute
  cases item.check with
  | ok i => exact hR.carryOut h i
  | error cause => exact ⟨rfl, h⟩

theorem loadProgram (h : R e.toMachine f.toMachine) (program : Except Fault (List UInt8)) :
    AnsweredUpTo R (e.settle (program >>= e.loadProgram)) (f.settle (program >>= f.loadProgram)) := by
  refine .settle h ?_
  cases program with
  | error cause => exact .error cause
  | ok data =>
      change SameUpTo _ (e.loadProgram data) (f.loadProgram data)
      have hmemory := hR.memory h
      have hstart := hR.programStart h
      unfold Emulator.loadProgram
      by_cases hlong : (0x1000 : Int) < e.programStart + data.length
      · rw [if_pos hlong, if_pos (hstart ▸ hlong), hstart]
        exact .error _
      · rw [if_neg hlong, if_neg (hstart ▸ hlong)]
        rcases e.memory.storeBytes_cases e.programStart data with ⟨bytes, hstore⟩ | ⟨cause, hstore⟩
        · -- the equation again, so that what is stored in each is written as its own memory
          have hstore' : f.memory.storeBytes f.programStart data = .ok { f.memory with bytes } := by
            rw [← hmemory, ← hstart]
            exact hstore
          rw [hstore, hstore']
          exact .ok (hR.withProgram h bytes)
        · rw [← hmemory, ← hstart, hstore]
          exact .error cause

theorem moveKey (h : R e.toMachine f.toMachine) (index : Int) (position : Bool) :
    AnsweredUpTo R (e.settle (do return e.moveKey (← Keypad.key index) position))
      (f.settle (do return f.moveKey (← Keypad.key index) position)) := by
  refine .settle h ?_
  cases Keypad.key index with
  | error cause => exact .error cause
  | ok k =>
      refine .ok ?_
      rw [toMachine_moveKey, toMachine_moveKey, ← hR.keypad h]
      exact hR.withKeypad h _

/-- A call has the same answer on both, as far as the view goes, and leaves related machines; its
steps are taken from related machines. -/
theorem serve (h : R e.toMachine f.toMachine) (request : Request) :
    AnsweredUpTo R ((e.serve request).1.map view, (e.serve request).2)
        ((f.serve request).1.map view, (f.serve request).2) ∧
      List.Forall₂ (fun e f => R e.toMachine f.toMachine) (e.stepsOf request) (f.stepsOf request) := by
  cases request with
  | loadProgram data => exact ⟨(hR.loadProgram h (.ok data)).map view, .nil⟩
  | loadWords words => exact ⟨(hR.loadProgram h (Program.ofWords words)).map view, .nil⟩
  | loadOperations items => exact ⟨(hR.loadProgram h (Program.encode items)).map view, .nil⟩
  | step => exact ⟨((hR.emulator_step h).map Answer.truth).map view, .cons h .nil⟩
  | run limit =>
      obtain ⟨hrun, hsteps⟩ := hR.runOn h 0 (runLimit limit)
      rw [← run_eq, ← run_eq] at hrun
      exact ⟨(hrun.map Answer.count).map view, hsteps⟩
  | execute item => exact ⟨((hR.execute h item).map Answer.truth).map view, .nil⟩
  | tick => exact ⟨⟨congrArg Except.ok (hR.timers h), hR.tick h⟩, .nil⟩
  | keyDown index =>
      rw [e.serve_keyDown, f.serve_keyDown]
      exact ⟨(hR.moveKey h index true).map view, .nil⟩
  | keyUp index =>
      rw [e.serve_keyUp, f.serve_keyUp]
      exact ⟨(hR.moveKey h index false).map view, .nil⟩
  | installFont location =>
      have hinstall : AnsweredUpTo R (e.installFont location) (f.installFont location) :=
        hR.installFont h location
      exact ⟨(hinstall.map fun _ => Answer.nothing).map view, .nil⟩
  | reset =>
      have hreset : AnsweredUpTo R e.reset f.reset := hR.reset h
      exact ⟨(hreset.map fun _ => Answer.nothing).map view, .nil⟩

/-- So have any calls that follow one another. -/
theorem serveAll (h : R e.toMachine f.toMachine) (requests : List Request) :
    (e.answers requests).map (·.map view) = (f.answers requests).map (·.map view) ∧
      R (e.serveAll requests).toMachine (f.serveAll requests).toMachine ∧
      List.Forall₂ (fun e f => R e.toMachine f.toMachine)
        (e.allSteps requests) (f.allSteps requests) := by
  induction requests generalizing e f with
  | nil => exact ⟨rfl, h, .nil⟩
  | cons request rest ih =>
      obtain ⟨⟨hanswer, hafter⟩, hsteps⟩ := hR.serve h request
      obtain ⟨hanswers, hafters, hsteps_rest⟩ := ih hafter
      exact ⟨congrArg₂ List.cons hanswer hanswers, hafters, List.rel_append hsteps hsteps_rest⟩

end Congruence

end Machine

end Chip8
