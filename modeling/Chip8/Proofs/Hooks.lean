import Chip8.Proofs.Direct

/-!
# Chip8.Proofs.Hooks

A step does the same whether the hooks of a driver are called before it or after it.  A tick
and the events of keys are revisions of the machine (`toMachine_tick_revised`,
`toMachine_serveAll_keys`): a tick changes the timers, events of keys change the keypad, and what
they make of them depends on nothing else.  An instruction that has nothing to do with these
parts commutes with their revision, and so does the step that carries it out or that halts
(`step_revised`).
-/

namespace Chip8

namespace Revision

/-- Both timers count down. -/
def countingDown : Revision := { delay := fun n => max 0 (n - 1), sound := fun n => max 0 (n - 1) }

/-- The keys are moved. -/
def moving (keypad : Keypad → Keypad) : Revision := { keypad }

/-- The notes about the last step stay as they are. -/
structure KeepsNotes (c : Revision) : Prop where
  lastOp : c.lastOp = id
  haltReason : c.haltReason = id
  haltWord : c.haltWord = id

theorem spares_countingDown {op : Opcode} (h : op.usesTimers = false) :
    countingDown.Spares op where
  timers := by simp [h]
  keys _ := rfl
  random _ := rfl

theorem spares_moving {op : Opcode} (h : op.looksAtKeys = false) (keypad : Keypad → Keypad) :
    (moving keypad).Spares op where
  timers _ := ⟨rfl, rfl⟩
  keys := by simp [h]
  random _ := rfl

end Revision

namespace Machine

/-! ## steps -/

/-- The instruction that a step comes across does the same before a change that spares it as
after. -/
theorem perform_found_revised {m : Machine} {c : Revision} {word : Nat} {i : Instruction}
    (hnotes : c.KeepsNotes) (hspares : ∀ i ∈ m.upcoming, c.Spares i.opcode)
    (hword : m.fetch = some word) (hi : Instruction.ofWord? word = some i) :
    ((m.revised c).found i).perform i = ((m.found i).perform i).map (·.revised c) := by
  have hup : i ∈ m.upcoming := upcoming_of_fetch hword hi
  have hfound : (m.revised c).found i = (m.found i).revised c := by
    obtain ⟨delay, sound, keypad, rng, lastOp, reason, word⟩ := c
    obtain ⟨rfl, rfl, rfl⟩ := hnotes
    rfl
  rw [hfound]
  exact (m.found i).perform_revised (hspares i hup)

/-- A step has the same answer before a change that spares the next instruction as after, and
leaves the same machine. -/
theorem step_revised {m : Machine} {c : Revision} (hnotes : c.KeepsNotes)
    (hspares : ∀ i ∈ m.upcoming, c.Spares i.opcode) :
    (m.revised c).step = (m.step.1, m.step.2.revised c) := by
  have hsame := fun word i => @perform_found_revised m c word i hnotes hspares
  have hfetch : (m.revised c).fetch = m.fetch := rfl
  have hstep := m.stepped_step
  generalize m.step = r at hstep ⊢
  unfold step
  rw [hfetch]
  -- The change leaves the notes alone, so those of the step are the same before it and after it.
  obtain ⟨delay, sound, keypad, rng, lastOp, reason, word⟩ := c
  obtain ⟨rfl, rfl, rfl⟩ := hnotes
  cases hstep with
  | endOfMemory hnone =>
      rw [hnone]
      rfl
  | invalid hword hnone =>
      simp only [hword, hnone]
      rfl
  | carriedOut hword hi hperform =>
      simp only [hword, hi, hsame _ _ hword hi, hperform]
      rfl
  | halted hword hi hperform | faulted hword hi hperform =>
      simp only [hword, hi, hsame _ _ hword hi, hperform]
      rfl

end Machine

/-! ## hooks as revisions -/

/-- The keypad with a key moved, if there is such a key. -/
def Keypad.moved (p : Keypad) (index : Int) (position : Bool) : Keypad :=
  match key index with
  | .ok k => (p.move k position).2
  | .error _ => p

/-- What a call makes of the keys. -/
def Request.moveKeys (p : Keypad) : Request → Keypad
  | .keyDown index => p.moved index true
  | .keyUp index => p.moved index false
  | _ => p

namespace Emulator

open Machine

/-- A tick is a change of the timers. -/
theorem toMachine_tick_revised (e : Emulator) :
    e.tick.toMachine = e.toMachine.revised .countingDown := rfl

theorem settle_moveKey_revised (e : Emulator) (index : Int) (position : Bool) :
    (e.settle (do return e.moveKey (← Keypad.key index) position)).2.toMachine =
      e.toMachine.revised (.moving (·.moved index position)) := by
  unfold Keypad.moved
  cases Keypad.key index with
  | ok k => exact e.toMachine_moveKey k position
  | error cause => rfl

/-- The event of a key is a change of the keypad. -/
theorem toMachine_serve_key {e : Emulator} {request : Request}
    (h : request.key?.isSome = true) :
    (e.serve request).2.toMachine = e.toMachine.revised (.moving (request.moveKeys ·)) := by
  cases request with
  | keyDown index =>
      rw [serve_keyDown]
      exact e.settle_moveKey_revised index true
  | keyUp index =>
      rw [serve_keyUp]
      exact e.settle_moveKey_revised index false
  | _ => cases h

/-- So are the events of several keys, one after the other. -/
theorem toMachine_serveAll_keys {e : Emulator} {requests : List Request}
    (h : ∀ request ∈ requests, request.key?.isSome = true) :
    (e.serveAll requests).toMachine =
      e.toMachine.revised (.moving (requests.foldl Request.moveKeys ·)) := by
  induction requests generalizing e with
  | nil => rfl
  | cons request rest ih =>
      obtain ⟨hfirst, hrest⟩ := List.forall_mem_cons.1 h
      rw [serveAll_cons, ih hrest, toMachine_serve_key hfirst]
      rfl

/-- **Hooks and steps commute**: where the next instruction, if there is one, has nothing to do
with the timers, a tick before a step leads to the same answer and the same machine as a tick
after it; where it does not look at keys, so do the events of any keys.  The step may halt the
machine in either case. -/
theorem hooks_commute (e : Emulator) :
    ((∀ i ∈ e.upcoming, i.opcode.usesTimers = false) →
      e.tick.step.1 = e.step.1 ∧ e.tick.step.2.toMachine = e.step.2.tick.toMachine) ∧
    ((∀ i ∈ e.upcoming, i.opcode.looksAtKeys = false) →
      ∀ events : List Request, (∀ event ∈ events, event.key?.isSome = true) →
        (e.serveAll events).step.1 = e.step.1 ∧
          (e.serveAll events).step.2.toMachine = (e.step.2.serveAll events).toMachine) := by
  constructor
  · intro htimers
    have hspares : ∀ i ∈ e.upcoming, Revision.countingDown.Spares i.opcode :=
      fun i hi => Revision.spares_countingDown (htimers i hi)
    have hstep := step_revised ⟨rfl, rfl, rfl⟩ hspares
    rw [step_fst, step_fst, step_toMachine, toMachine_tick_revised, toMachine_tick_revised,
      step_toMachine, hstep]
    exact ⟨rfl, rfl⟩
  · intro hkeys events hevents
    have hspares : ∀ i ∈ e.upcoming,
        (Revision.moving (events.foldl Request.moveKeys ·)).Spares i.opcode :=
      fun i hi => Revision.spares_moving (hkeys i hi) _
    have hstep := step_revised ⟨rfl, rfl, rfl⟩ hspares
    rw [step_fst, step_fst, step_toMachine, toMachine_serveAll_keys hevents,
      toMachine_serveAll_keys hevents, step_toMachine, hstep]
    exact ⟨rfl, rfl⟩

/-- An emulator that finds calls everywhere, has room for none, and has both timers running. -/
def ringing : Emulator :=
  { crowded with processor := { crowded.processor with dt := 1, st := 0xFF } }

/-- The step halts the machine; the tick and the events of keys come before it or after it. -/
theorem hooks_commute_ringing :
    let events : List Request := [.keyDown 3, .keyDown 15, .keyUp 3]
    (∀ i ∈ ringing.upcoming, i.opcode.usesTimers = false ∧ i.opcode.looksAtKeys = false) ∧
      (∀ event ∈ events, event.key?.isSome = true) ∧ ringing.step.1 = .ok false ∧
      (ringing.tick.step.1 = .ok false ∧
        ringing.tick.step.2.toMachine = ringing.step.2.tick.toMachine) ∧
      (ringing.serveAll events).step.1 = .ok false ∧
        (ringing.serveAll events).step.2.toMachine =
          (ringing.step.2.serveAll events).toMachine := by
  intro events
  have hnext : ringing.upcoming = some ⟨.call, (0x222 : Address)⟩ := by decide +kernel
  have hcall : ∀ i ∈ ringing.upcoming,
      i.opcode.usesTimers = false ∧ i.opcode.looksAtKeys = false := by
    rw [hnext]
    decide
  have hevents : ∀ event ∈ events, event.key?.isSome = true := by decide
  have hhalts : ringing.step.1 = .ok false := by decide +kernel
  obtain ⟨htick, hkeys⟩ := hooks_commute ringing
  have hticked := htick fun i hi => (hcall i hi).1
  have hmoved := hkeys (fun i hi => (hcall i hi).2) events hevents
  rw [hhalts] at hticked hmoved
  exact ⟨hcall, hevents, hhalts, hticked, hmoved⟩

end Emulator

end Chip8
