import Chip8.Proofs.Bounds
import Chip8.Proofs.Direct

/-!
# Chip8.Proofs.Subroutine

A subroutine returns to where it was called, whatever it calls in between.  A call puts its
own address on the stack; while the stack does not get lower than that, what the call found on
it and the address on top stay as they are (`CallStack.Extends`).  `extends_perform` states
this for one instruction, `extends_serveAll` for a run of steps, ticks and key events.  Once
the stack is as high as right after the call again, it is the same stack, so a return takes
the address of the call off it.
-/

namespace Chip8

namespace CallStack

/-! ## a stack and what lies on top of it -/

/-- The stack holds all that another one holds, and may hold more recent addresses on top. -/
structure Extends (s base : CallStack) : Prop where
  limit : s.limit = base.limit
  frames : base.frames <:+ s.frames

theorem Extends.refl (s : CallStack) : s.Extends s := ⟨rfl, List.suffix_rfl⟩

theorem Extends.push {s base : CallStack} (h : s.Extends base) (a : Int) :
    Extends { s with frames := a :: s.frames } base :=
  ⟨h.limit, h.frames.trans (List.suffix_cons a s.frames)⟩

/-- What lies on top can be taken off as long as no fewer addresses are left than below it. -/
theorem Extends.pop {s base : CallStack} {a : Int} {rest : List Int} (h : s.Extends base)
    (hframes : s.frames = a :: rest) (hdepth : base.depth ≤ rest.length) :
    Extends { s with frames := rest } base := by
  have hsuffix := h.frames
  rw [hframes, List.suffix_cons_iff] at hsuffix
  rcases hsuffix with hall | hrest
  · rw [depth, hall, List.length_cons] at hdepth
    omega
  · exact ⟨h.limit, hrest⟩

/-- Nothing lies on top where there are no more addresses. -/
theorem Extends.eq_of_depth {s base : CallStack} (h : s.Extends base)
    (hdepth : s.depth = base.depth) : s = base := by
  obtain ⟨limit, frames⟩ := s
  obtain ⟨base_limit, base_frames⟩ := base
  obtain rfl : limit = base_limit := h.limit
  obtain rfl : base_frames = frames := h.frames.eq_of_length hdepth.symm
  rfl

end CallStack

namespace Machine

/-! ## instructions and steps -/

theorem perform_ret {m : Machine} {a : Int} {rest : List Int}
    (h : m.processor.stack.frames = a :: rest) :
    m.perform ⟨.ret, ()⟩ =
      .ok (m.onProcessor fun p =>
        { p with stack := { p.stack with frames := rest }, pc := wrap (a + 2) }) := by
  simp only [perform, Processor.ret, CallStack.pop, h]
  rfl

/-- An instruction leaves alone what lies deeper in the stack than it goes. -/
theorem extends_perform {m after : Machine} {i : Instruction} {base : CallStack}
    (h : m.perform i = .ok after) (hm : m.processor.stack.Extends base)
    (hdepth : base.depth ≤ after.processor.stack.depth) :
    after.processor.stack.Extends base := by
  have hout := outcome_of_perform h
  generalize i.opcode = op at hout
  cases hout
  case call a hroom => exact hm.push m.processor.pc
  case ret a rest hframes => exact hm.pop hframes hdepth
  all_goals exact hm

theorem extends_step {m : Machine} {base : CallStack} (hm : m.processor.stack.Extends base)
    (hdepth : base.depth ≤ m.step.2.processor.stack.depth) :
    m.step.2.processor.stack.Extends base := by
  by_cases htrue : m.step.1 = .ok true
  · have hstep := m.stepped_step
    generalize m.step = r at hstep htrue hdepth ⊢
    cases hstep with
    | @carriedOut _ _ after hword hi h =>
        have hafter : after.processor.stack.Extends base :=
          extends_perform (m := m.found _) h hm hdepth
        exact hafter
    | endOfMemory | invalid | halted | faulted => cases htrue
  · rw [stack_step htrue]
    exact hm

end Machine

namespace Emulator

open Machine

/-! ## runs -/

/-- During a sequence of calls, there are always at least so many addresses on the stack. -/
def StaysAbove (e : Emulator) (floor : Nat) (requests : List Request) : Prop :=
  ∀ before, before <+: requests → floor ≤ (e.serveAll before).processor.stack.depth

theorem staysAbove_nil_iff {e : Emulator} {floor : Nat} :
    e.StaysAbove floor [] ↔ floor ≤ e.processor.stack.depth := by
  simp [StaysAbove]

theorem staysAbove_cons_iff {e : Emulator} {floor : Nat} {request : Request}
    {rest : List Request} :
    e.StaysAbove floor (request :: rest) ↔
      floor ≤ e.processor.stack.depth ∧ (e.serve request).2.StaysAbove floor rest := by
  constructor
  · intro h
    exact ⟨h [] List.nil_prefix, fun before hbefore =>
      h (request :: before) (List.cons_prefix_cons.2 ⟨rfl, hbefore⟩)⟩
  · rintro ⟨hstart, hrest⟩ before hbefore
    rcases List.prefix_cons_iff.1 hbefore with rfl | ⟨others, rfl, hothers⟩
    · exact hstart
    · exact hrest others hothers

theorem StaysAbove.start {e : Emulator} {floor : Nat} {requests : List Request}
    (h : e.StaysAbove floor requests) : floor ≤ e.processor.stack.depth :=
  h [] List.nil_prefix

/-- Steps, ticks and key events leave alone what lies deeper in the stack than they go. -/
theorem extends_serve {e : Emulator} {request : Request} {base : CallStack}
    (hhook : request.isHook) (he : e.processor.stack.Extends base)
    (hdepth : base.depth ≤ (e.serve request).2.processor.stack.depth) :
    (e.serve request).2.processor.stack.Extends base := by
  have hkey := @serve_key e request
  cases request with
  | step =>
      change base.depth ≤ e.step.2.processor.stack.depth at hdepth
      change e.step.2.processor.stack.Extends base
      rw [e.step_toMachine] at hdepth ⊢
      exact extends_step he hdepth
  | tick => exact he
  | keyDown index | keyUp index =>
      obtain ⟨-, keypad, hmoved⟩ := hkey rfl
      rw [hmoved]
      exact he
  | _ => exact hhook.elim

/-- What lies deep enough in the stack is left alone by a whole run. -/
theorem extends_serveAll {e : Emulator} {requests : List Request} {base : CallStack}
    (hhooks : ∀ request ∈ requests, request.isHook) (he : e.processor.stack.Extends base)
    (hstays : e.StaysAbove base.depth requests) :
    (e.serveAll requests).processor.stack.Extends base := by
  induction requests generalizing e with
  | nil => exact he
  | cons request rest ih =>
      obtain ⟨hhook, hhooks_rest⟩ := List.forall_mem_cons.1 hhooks
      obtain ⟨-, hstays_rest⟩ := staysAbove_cons_iff.1 hstays
      exact ih hhooks_rest (extends_serve hhook he hstays_rest.start) hstays_rest

/-- **Subroutines return to their caller**: a call for which there is room is made.  Whatever
steps, ticks and key events follow, if meanwhile the stack never gets lower than right after
the call, is as high as that in the end, and a return comes next, then the return is carried
out, goes on at the instruction after the call and leaves the stack that the call found. -/
theorem returns_to_caller {e : Emulator} {target : Address}
    (hcall : e.upcoming = some ⟨.call, target⟩) (hroom : e.processor.stack.isFull = false) :
    ∃ called, e.step = (.ok true, called) ∧
      ∀ requests : List Request, (∀ request ∈ requests, request.isHook) →
        called.StaysAbove (e.processor.stack.depth + 1) requests →
        (called.serveAll requests).processor.stack.depth = e.processor.stack.depth + 1 →
        (called.serveAll requests).upcoming = some ⟨.ret, ()⟩ →
        ∃ after, (called.serveAll requests).step = (.ok true, after) ∧
          after.processor.pc = wrap (e.processor.pc + 2) ∧
          after.processor.stack = e.processor.stack := by
  obtain ⟨called, hstep, hcalled⟩ :=
    exists_step (step_of_perform_ok hcall (perform_call target hroom))
  refine ⟨called, hstep, ?_⟩
  intro requests hhooks hstays hdepth hret
  let base : CallStack :=
    { e.processor.stack with frames := e.processor.pc :: e.processor.stack.frames }
  have hbase : called.processor.stack = base := by rw [hcalled]; rfl
  have hextends : (called.serveAll requests).processor.stack.Extends base :=
    extends_serveAll hhooks (hbase ▸ .refl _) hstays
  have hsame : (called.serveAll requests).processor.stack = base := hextends.eq_of_depth hdepth
  obtain ⟨after, hafter_step, hafter⟩ :=
    exists_step (step_of_perform_ok hret (perform_ret (congrArg CallStack.frames hsame)))
  refine ⟨after, hafter_step, ?_, ?_⟩
  · rw [hafter]
    rfl
  · rw [hafter]
    change { (called.serveAll requests).processor.stack with frames := e.processor.stack.frames } =
      e.processor.stack
    rw [hsame]

/-- An emulator at the last word of memory, which calls a subroutine; this calls another one. -/
def calling : Emulator :=
  let m := Machine.blank 2 0 0x200 (Rng.cycle [])
  let outer := ((m.memory.bytes.set 0x300 0x23).set 0x301 0x04).set 0x303 0xEE
  { toMachine :=
      { m with
        memory := ⟨(outer.set 0x305 0xEE).set 0xFFE 0x23, 0⟩
        processor := { m.processor with pc := 0xFFE } }
    log := .off }

/-- The outer subroutine returns past the end of memory, which is to its start. -/
theorem returns_to_caller_calling :
    let inner : List Request := [.step, .tick, .keyDown 99, .step]
    calling.upcoming = some ⟨.call, (0x300 : Address)⟩ ∧
      calling.processor.stack.isFull = false ∧
      ∃ called, calling.step = (.ok true, called) ∧ called.StaysAbove 1 inner ∧
        (called.serveAll inner).upcoming = some ⟨.ret, ()⟩ ∧
        ∃ after, (called.serveAll inner).step = (.ok true, after) ∧ after.processor.pc = 0 ∧
          after.processor.stack = ⟨2, []⟩ := by
  intro inner
  have hcall : calling.upcoming = some ⟨.call, (0x300 : Address)⟩ := by decide +kernel
  have hroom : calling.processor.stack.isFull = false := by decide
  obtain ⟨called, hstep, hreturns⟩ := returns_to_caller hcall hroom
  obtain rfl : calling.step.2 = called := congrArg Prod.snd hstep
  have hhooks : ∀ request ∈ inner, request.isHook := by simp [inner, Request.isHook]
  have hrun : calling.step.2.StaysAbove 1 inner ∧
      (calling.step.2.serveAll inner).processor.stack.depth = 1 ∧
      (calling.step.2.serveAll inner).upcoming = some ⟨.ret, ()⟩ := by
    simp only [inner, staysAbove_cons_iff, staysAbove_nil_iff]
    decide +kernel
  obtain ⟨hstays, hdepth, hret⟩ := hrun
  obtain ⟨after, hafter, hpc, hstack⟩ := hreturns inner hhooks hstays hdepth hret
  exact ⟨hcall, hroom, _, hstep, hstays, hret, after, hafter, hpc, hstack⟩

end Emulator

end Chip8
