import Chip8.Proofs.Footprint

/-!
# Chip8.Proofs.SavedRegisters

Registers that are stored and later restored.  The two instructions look at the same addresses, in
memory and by way of the index register, so what matters of everything that comes in between is that
it leaves these two alone (`Undisturbed`).  `undisturbed_perform` states this for the instructions
that have to do with neither, and `undisturbed_serveAll` for sequences of such instructions, ticks
and key events.
-/

namespace Chip8

/-- The calls that leave memory and the index register alone, whatever the state is. -/
def Request.isSparing : Request → Bool
  | .execute (.operation o) => o.opcode.effect ≠ .memory && o.opcode.effect ≠ .index
  | .execute _ | .tick | .keyDown _ | .keyUp _ => true
  | _ => false

namespace Machine

/-- Memory and the index register are as they were. -/
structure Undisturbed (m after : Machine) : Prop where
  bytes : after.memory.bytes = m.memory.bytes
  index : after.processor.i = m.processor.i

theorem Undisturbed.refl (m : Machine) : Undisturbed m m := ⟨rfl, rfl⟩

theorem Undisturbed.trans {m between after : Machine} (hfirst : Undisturbed m between)
    (hsecond : Undisturbed between after) : Undisturbed m after :=
  ⟨hsecond.bytes.trans hfirst.bytes, hsecond.index.trans hfirst.index⟩

theorem undisturbed_perform {m after : Machine} {i : Instruction} (h : m.perform i = .ok after)
    (hmemory : i.opcode.effect ≠ .memory) (hindex : i.opcode.effect ≠ .index) :
    Undisturbed m after :=
  ⟨congrArg Memory.bytes (memory_perform h hmemory), index_perform h hindex⟩

/-- What was stored is what is restored, if nothing has disturbed it. -/
theorem Restored.reg_eq {m saved between after : Machine} {x k : Register}
    (hrestored : Restored between after x) (hstored : Stored m saved (m.registersUpTo x))
    (hundisturbed : Undisturbed saved between) (hk : k ≤ x) : after.reg k = m.reg k := by
  have hlt : k.val < (m.registersUpTo x).length := by
    rw [length_registersUpTo]
    exact Nat.lt_succ_of_le hk
  have hwritten := hstored.written k.val hlt
  have hloaded := hrestored.loaded k hk
  have hindex : between.processor.i = m.processor.i := by
    rw [hundisturbed.index, hstored.rest]
    rfl
  have hload : between.memory.load (wrap (m.processor.i + k.val)) =
      saved.memory.load (wrap (m.processor.i + k.val)) :=
    Memory.load_congr fun j _ => congrArg (·.get j) hundisturbed.bytes
  rw [hindex, hload, hwritten, getElem_registersUpTo] at hloaded
  exact (Except.ok.inj hloaded).symm

end Machine

namespace Emulator

open Machine

/-! ## what comes in between -/

theorem undisturbed_execute (e : Emulator) {item : Item} (h : (Request.execute item).isSparing) :
    Undisturbed e.toMachine (e.execute item).2.toMachine := by
  unfold execute
  cases hcheck : item.check with
  | error cause => exact .refl _
  | ok i =>
      obtain ⟨hmemory, hindex⟩ : i.opcode.effect ≠ .memory ∧ i.opcode.effect ≠ .index := by
        simpa [Item.check_eq_ok_iff.1 hcheck, Item.ofInstruction, Instruction.toOperation,
          Request.isSparing] using h
      dsimp only
      cases hperform : e.toMachine.perform i with
      | ok after =>
          rw [carryOut_of_ok hperform]
          exact undisturbed_perform hperform hmemory hindex
      | error stop =>
          cases stop with
          | halt reason =>
              rw [(carryOut_of_halt hperform).2]
              exact ⟨rfl, rfl⟩
          | fault cause =>
              rw [carryOut_of_fault hperform]
              exact .refl _

theorem undisturbed_serve (e : Emulator) {request : Request} (h : request.isSparing) :
    Undisturbed e.toMachine (e.serve request).2.toMachine := by
  have hkey := @serve_key e request
  cases request with
  | execute item => exact e.undisturbed_execute h
  | tick => exact ⟨rfl, rfl⟩
  | keyDown index | keyUp index =>
      obtain ⟨-, keypad, hmoved⟩ := hkey rfl
      rw [hmoved]
      exact ⟨rfl, rfl⟩
  | _ => exact nomatch h

/-- Sequences of calls that leave memory and the index register alone. -/
theorem undisturbed_serveAll (e : Emulator) {requests : List Request}
    (h : ∀ request ∈ requests, request.isSparing) :
    Undisturbed e.toMachine (e.serveAll requests).toMachine :=
  serveAll_invariant (P := fun after => Undisturbed e.toMachine after.toMachine)
    (fun between _ hspares hbefore => hbefore.trans (between.undisturbed_serve hspares))
    (.refl _) h

/-! ## saving and restoring -/

/-- **Saved registers**: the instruction that stores the registers V0 to Vx is always carried out.
It leaves them at the addresses from the index register on, also where these wrap around the end of
memory; the program counter goes on, and nothing else changes.  Whatever calls follow, if in the end
memory and the index register are as they were then, the instruction that restores V0 to Vx is
carried out as well, gives these registers what they held when they were stored, and leaves the
others what they hold by now. -/
theorem saved_registers_restored (e : Emulator) (x : Register) :
    ∃ saved, e.execute (.operation { opcode := .storeRegs, x := x.val }) = (.ok true, saved) ∧
      (∀ k ≤ x, saved.memory.load (wrap (e.processor.i + k.val)) = .ok (e.reg k)) ∧
      (∀ a, (∀ k ≤ x, wrap (e.processor.i + k.val) ≠ a) →
        saved.memory.load a = e.memory.load a) ∧
      saved.toMachine =
        { e.toMachine with
          memory := { e.memory with bytes := saved.memory.bytes }
          processor := { e.processor with pc := wrap (e.processor.pc + 2) } } ∧
      ∀ requests, Undisturbed saved.toMachine (saved.serveAll requests).toMachine →
        ∃ after,
          (saved.serveAll requests).execute (.operation { opcode := .loadRegs, x := x.val }) =
            (.ok true, after) ∧
          (∀ k ≤ x, after.reg k = e.reg k) ∧
          ∀ k > x, after.reg k = (saved.serveAll requests).reg k := by
  obtain ⟨saved, hsave, hstored⟩ := e.toMachine.exists_stored_storeRegs x
  have hlength := e.toMachine.length_registersUpTo x
  refine ⟨_, execute_of_perform hsave, ?_, ?_, hstored.rest, ?_⟩
  · intro k hk
    have hlt : k.val < (e.registersUpTo x).length := by
      rw [hlength]
      exact Nat.lt_succ_of_le hk
    rw [toMachine_withMachine, hstored.written k.val hlt, getElem_registersUpTo]
  · intro a ha
    refine hstored.outside a fun k hk => ?_
    rw [hlength] at hk
    exact ha ⟨k, by omega⟩ (Nat.le_of_lt_succ hk)
  · intro requests hundisturbed
    generalize (e.withMachine saved).serveAll requests = between at hundisturbed ⊢
    obtain ⟨after, hrestore, hrestored⟩ := between.toMachine.exists_restored x
    exact ⟨_, execute_of_perform hrestore, fun k hk => hrestored.reg_eq hstored hundisturbed hk,
      fun k hk => hrestored.others k (Nat.not_le_of_gt hk)⟩

/-- An emulator with a number in each register, and with its index register at the last byte but one
of memory. -/
def numbered : Emulator :=
  let m := Machine.blank 0 0 0x200 (Rng.cycle [0xFF])
  { toMachine :=
      { m with processor := { m.processor with v := .ofFn fun k => .ofNat k.val, i := 0xFFE } }
    log := .off }

/-- Registers are saved around the end of memory, and others are changed before they are restored;
a call for which there is no room, a tick and a key do not matter. -/
theorem saved_registers_restored_numbered :
    let between : List Request :=
      [.execute (.operation { opcode := .load, x := 1, kk := 0xF1 }),
        .execute (.operation { opcode := .addReg, x := 1, y := 1 }),
        .execute (.operation { opcode := .call, nnn := 0x300 }), .tick, .keyDown 3,
        .execute (.operation { opcode := .random, x := 7, kk := 0x3C })]
    ∃ saved after,
      numbered.execute (.operation { opcode := .storeRegs, x := 3 }) = (.ok true, saved) ∧
      saved.memory.load 0xFFF = .ok 1 ∧ saved.memory.load 0 = .ok 2 ∧
      Undisturbed saved.toMachine (saved.serveAll between).toMachine ∧
      (saved.serveAll between).reg 1 = 0xE2 ∧
      (saved.serveAll between).execute (.operation { opcode := .loadRegs, x := 3 }) =
        (.ok true, after) ∧
      after.reg 1 = 1 ∧ after.reg 7 = 0x3C ∧ after.reg 0xF = 1 := by
  intro between
  obtain ⟨saved, hsave, hstored, -, -, hrestores⟩ := saved_registers_restored numbered 3
  have hsaved : saved = (numbered.execute (.operation { opcode := .storeRegs, x := 3 })).2 :=
    (congrArg Prod.snd hsave).symm
  have hsparing : ∀ request ∈ between, request.isSparing := by decide
  have hundisturbed := saved.undisturbed_serveAll hsparing
  obtain ⟨after, hrestore, hinside, houtside⟩ := hrestores between hundisturbed
  have hlast : saved.memory.load 0xFFF = .ok 1 := hstored 1 (by decide)
  have hfirst : saved.memory.load 0 = .ok 2 := hstored 2 (by decide)
  have hchanged : (saved.serveAll between).reg 1 = 0xE2 ∧
      (saved.serveAll between).reg 7 = 0x3C ∧ (saved.serveAll between).reg 0xF = 1 := by
    rw [hsaved]
    decide +kernel
  exact ⟨saved, after, hsave, hlast, hfirst, hundisturbed, hchanged.1, hrestore,
    hinside 1 (by decide), (houtside 7 (by decide)).trans hchanged.2.1,
    (houtside 0xF (by decide)).trans hchanged.2.2⟩

end Emulator

end Chip8
