import Chip8.Proofs.Request

/-!
# Chip8.Proofs.History

Which instructions a sequence of calls carries out.  A step that is answered with
`true` has carried out the instruction that it notes; `carriedOut` collects these
along a run, `completed` for any call, and `sinceReset` along a sequence of calls,
starting over whenever the processor is reset.

`stepsOn`, `stepsOf` and `allSteps` collect instead the emulators that the steps are
taken from, halted and refused steps included.  What is said of every one of these is
said of every step that is taken at all.
-/

namespace Chip8

namespace Machine

/-- A step that goes on has carried out the instruction that it notes. -/
theorem carriedOut_of_step {m after : Machine} (h : m.step = (.ok true, after)) :
    ∃ word i final, m.fetch = some word ∧ Instruction.ofWord? word = some i ∧
      (m.found i).perform i = .ok final ∧ after = final.running ∧ after.lastOp = some i := by
  have hstep := h ▸ m.stepped_step
  cases hstep with
  | carriedOut hword hi hperform =>
      exact ⟨_, _, _, hword, hi, hperform, rfl, (kept_of_perform hperform).lastOp⟩

end Machine

namespace Emulator

/-- The instructions that a run of so many steps carries out, in order. -/
def carriedOut (e : Emulator) : Nat → List Instruction
  | 0 => []
  | limit + 1 =>
    match e.step with
    | (.ok true, after) => after.lastOp.toList ++ after.carriedOut limit
    | _ => []

theorem carriedOut_of_true {e after : Emulator} {i : Instruction} (h : e.step = (.ok true, after))
    (hlast : after.lastOp = some i) (limit : Nat) :
    e.carriedOut (limit + 1) = i :: after.carriedOut limit := by
  rw [carriedOut, h]
  simp only [hlast, Option.toList_some, List.singleton_append]

theorem carriedOut_of_false {e after : Emulator} (h : e.step = (.ok false, after)) (limit : Nat) :
    e.carriedOut (limit + 1) = [] := by
  rw [carriedOut, h]

/-- An instruction, if the answer says that it was carried out. -/
def ifCompleted (i : Instruction) : Except Fault Bool → List Instruction
  | .ok true => [i]
  | _ => []

/-- The instructions that a call carries out, in order. -/
def completed (e : Emulator) : Request → List Instruction
  | .step => e.carriedOut 1
  | .run limit => e.carriedOut (runLimit limit)
  | .execute item =>
    match item.check with
    | .ok i => ifCompleted i (e.carryOut i).1
    | .error _ => []
  | _ => []

/-- The instructions carried out since the processor was last reset, if `before`
were carried out so far and then calls are made. -/
def sinceReset (e : Emulator) (before : List Instruction) : List Request → List Instruction
  | [] => before
  | .reset :: rest => (e.serve .reset).2.sinceReset [] rest
  | request :: rest => (e.serve request).2.sinceReset (before ++ e.completed request) rest

theorem sinceReset_cons (e : Emulator) (before : List Instruction) {request : Request}
    (h : request ≠ .reset) (rest : List Request) :
    e.sinceReset before (request :: rest) =
      (e.serve request).2.sinceReset (before ++ e.completed request) rest := by
  cases request <;> first | rfl | exact absurd rfl h

/-! ## where steps are taken from -/

/-- The emulators that a run of so many steps takes a step from, in order. -/
def stepsOn (e : Emulator) : Nat → List Emulator
  | 0 => []
  | limit + 1 =>
    match e.step with
    | (.ok true, after) => e :: after.stepsOn limit
    | _ => [e]

/-- The emulators that a call takes a step from, in order. -/
def stepsOf (e : Emulator) : Request → List Emulator
  | .step => [e]
  | .run limit => e.stepsOn (runLimit limit)
  | _ => []

/-- The emulators that a sequence of calls takes a step from, in order. -/
def allSteps (e : Emulator) : List Request → List Emulator
  | [] => []
  | request :: rest => e.stepsOf request ++ (e.serve request).2.allSteps rest

theorem allSteps_append (e : Emulator) (first second : List Request) :
    e.allSteps (first ++ second) = e.allSteps first ++ (e.serveAll first).allSteps second := by
  induction first generalizing e with
  | nil => rfl
  | cons request rest ih =>
      rw [List.cons_append, allSteps, allSteps, ih, serveAll_cons, List.append_assoc]

end Emulator

end Chip8
