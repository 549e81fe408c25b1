import Chip8.Proofs.Halting
import Chip8.Proofs.NoFault

/-!
# Chip8.Proofs.Runs

What a run is, as a relation, and that runs can be taken in pieces.  `Ran` says how far
a run gets under its limit and what it leaves; `runOn_eq_iff` states that the emulator
runs like this.

Two runs, one after the other, are one run under the sum of their limits (`Ran.append`).
Either the first one uses up its limit, and the second takes up where it stopped; or it
ends because the machine halts, and stepping a machine that has halted changes nothing
(`Ran.of_halted`).
-/

namespace Chip8

namespace Machine

/-- A machine that has just halted is not changed by another step. -/
theorem step_of_halting {m after : Machine} (h : m.step = (.ok false, after)) :
    after.step = (.ok false, after) := by
  have hfalse : m.step.1 = .ok false := congrArg Prod.fst h
  obtain ⟨reason, word, op, hstuck⟩ := stuck_of_step hfalse
  obtain rfl : after = m.stopped reason word op :=
    congrArg Prod.snd (h.symm.trans (step_of_stuck hstuck))
  exact step_of_halted hstuck m.processor.dt m.processor.st m.keypad

end Machine

namespace Emulator

/-! ## runs as a relation -/

/-- `Ran e limit n after`: under the limit, the emulator `e` carries out `n` instructions
and is left as `after`. -/
inductive Ran : Emulator → Nat → Nat → Emulator → Prop
  | spent (e : Emulator) : Ran e 0 0 e
  | halted {e after : Emulator} {limit : Nat} (h : e.step = (.ok false, after)) :
      Ran e (limit + 1) 0 after
  | wentOn {e between after : Emulator} {limit n : Nat} (h : e.step = (.ok true, between))
      (rest : Ran between limit n after) : Ran e (limit + 1) (n + 1) after

/-- A run that is answered is one in the sense of `Ran`; what was done before is added to
the answer and has no other influence. -/
theorem runOn_eq_iff {e after : Emulator} {done limit k : Nat} :
    e.runOn done limit = (.ok k, after) ↔ ∃ n, k = done + n ∧ Ran e limit n after := by
  -- The loop passes on what it has done, so this varies in the induction.
  induction limit generalizing e done with
  | zero =>
      constructor
      · intro h
        cases h
        exact ⟨0, rfl, .spent _⟩
      · rintro ⟨n, rfl, hran⟩
        cases hran
        rfl
  | succ limit ih =>
      rw [runOn_succ]
      cases hstep : e.step with
      | mk answer between =>
          match answer with
          | .ok true =>
              change between.runOn (done + 1) limit = _ ↔ _
              rw [ih]
              constructor
              · rintro ⟨n, rfl, hran⟩
                exact ⟨n + 1, by omega, .wentOn hstep hran⟩
              · rintro ⟨n, rfl, hran⟩
                cases hran with
                | halted h => cases hstep.symm.trans h
                | wentOn h rest =>
                    cases hstep.symm.trans h
                    exact ⟨_, by omega, rest⟩
          | .ok false =>
              constructor
              · intro h
                cases h
                exact ⟨0, rfl, .halted hstep⟩
              · rintro ⟨n, rfl, hran⟩
                cases hran with
                | halted h =>
                    cases hstep.symm.trans h
                    rfl
                | wentOn h rest => cases hstep.symm.trans h
          | .error cause =>
              constructor
              · intro h
                cases h
              · rintro ⟨n, rfl, hran⟩
                cases hran with
                | halted h | wentOn h => cases hstep.symm.trans h

/-- A run is answered with the number of instructions that it carried out. -/
theorem run_eq_iff {e after : Emulator} {limit : Int} {n : Nat} :
    e.run (some limit) = (.ok n, after) ↔ Ran e limit.toNat n after := by
  change e.runOn 0 limit.toNat = (.ok n, after) ↔ _
  rw [runOn_eq_iff]
  simp only [Nat.zero_add, exists_eq_left']

theorem answer_run_iff {e : Emulator} {limit : Int} {n : Nat} :
    (e.run (some limit)).1 = .ok n ↔ ∃ after, Ran e limit.toNat n after := by
  simp only [← run_eq_iff, Prod.ext_iff, exists_and_left, exists_eq', and_true]

/-- Where the delay timer holds a byte, runs are answered. -/
theorem exists_ran {e : Emulator} (hdelay : e.processor.DelayIsByte) (limit : Nat) :
    ∃ n after, Ran e limit n after ∧ after.processor.DelayIsByte := by
  obtain ⟨n, hn⟩ := runOn_ok hdelay 0 limit
  have hafter := runOn_invariant (P := fun m => m.processor.DelayIsByte)
    (fun m => Machine.delayIsByte_step) hdelay 0 limit
  have hrun : e.runOn 0 limit = (.ok n, (e.runOn 0 limit).2) := Prod.ext hn rfl
  obtain ⟨k, -, hran⟩ := runOn_eq_iff.1 hrun
  exact ⟨k, _, hran, hafter⟩

/-! ## one run after another -/

/-- A run of a machine that has halted carries out nothing and leaves the machine as it
is. -/
theorem Ran.of_halted {e after : Emulator} {limit n : Nat} (hran : Ran e limit n after)
    (h : e.toMachine.step = (.ok false, e.toMachine)) :
    n = 0 ∧ after.toMachine = e.toMachine := by
  cases hran with
  | spent => exact ⟨rfl, rfl⟩
  | halted hstep =>
      have hsame := h.symm.trans (machine_step_of_step hstep)
      exact ⟨rfl, (congrArg Prod.snd hsame).symm⟩
  | wentOn hstep rest =>
      have hsame := h.symm.trans (machine_step_of_step hstep)
      cases congrArg Prod.fst hsame

/-- Two runs, one after the other, are one run under the sum of their limits. -/
theorem Ran.append {e first second : Emulator} {a b j k : Nat} (hfirst : Ran e a j first)
    (hsecond : Ran first b k second) :
    ∃ whole, Ran e (a + b) (j + k) whole ∧ second.toMachine = whole.toMachine := by
  induction hfirst with
  | spent e =>
      rw [Nat.zero_add, Nat.zero_add]
      exact ⟨second, hsecond, rfl⟩
  | halted hstep =>
      -- The first run ended early: the second one finds a machine that stays halted.
      have hlasts := Machine.step_of_halting (machine_step_of_step hstep)
      obtain ⟨rfl, hmachine⟩ := hsecond.of_halted hlasts
      rw [Nat.add_right_comm]
      exact ⟨_, .halted hstep, hmachine⟩
  | wentOn hstep rest ih =>
      obtain ⟨whole, hwhole, hmachine⟩ := ih hsecond
      rw [Nat.add_right_comm _ 1 b, Nat.add_right_comm _ 1 k]
      exact ⟨whole, .wentOn hstep hwhole, hmachine⟩

/-! ## the step at which a run ends -/

/-- The emulator after so many steps, whatever they are answered. -/
def afterSteps (e : Emulator) : Nat → Emulator
  | 0 => e
  | n + 1 => e.step.2.afterSteps n

/-- After `n` steps that go on comes one that does not. -/
def HaltsAfter (e : Emulator) (n : Nat) : Prop :=
  (∀ k < n, (e.afterSteps k).step.1 = .ok true) ∧ (e.afterSteps n).step.1 = .ok false

theorem haltsAfter_zero_iff {e : Emulator} : e.HaltsAfter 0 ↔ e.step.1 = .ok false := by
  simp [HaltsAfter, afterSteps]

theorem haltsAfter_succ_iff {e : Emulator} {n : Nat} :
    e.HaltsAfter (n + 1) ↔ e.step.1 = .ok true ∧ e.step.2.HaltsAfter n := by
  unfold HaltsAfter
  constructor
  · rintro ⟨hgo, hhalt⟩
    exact ⟨hgo 0 (Nat.zero_lt_succ n), fun k hk => hgo (k + 1) (Nat.succ_lt_succ hk), hhalt⟩
  · rintro ⟨hfirst, hgo, hhalt⟩
    refine ⟨?_, hhalt⟩
    intro k hk
    cases k with
    | zero => exact hfirst
    | succ k => exact hgo k (Nat.lt_of_succ_lt_succ hk)

/-- A run that stays below its limit ends at a step that does not go on. -/
theorem Ran.haltsAfter {e after : Emulator} {limit n : Nat} (hran : Ran e limit n after)
    (hlt : n < limit) : e.HaltsAfter n := by
  induction hran with
  | spent => exact absurd hlt (Nat.lt_irrefl 0)
  | halted hstep => exact haltsAfter_zero_iff.2 (congrArg Prod.fst hstep)
  | wentOn hstep rest ih =>
      have hrest := ih (Nat.lt_of_succ_lt_succ hlt)
      exact haltsAfter_succ_iff.2 ⟨congrArg Prod.fst hstep, hstep ▸ hrest⟩

/-- A run whose limit leaves room for the step that does not go on ends there. -/
theorem HaltsAfter.ran {e : Emulator} {n limit : Nat} (h : e.HaltsAfter n) (hlt : n < limit) :
    ∃ after, Ran e limit n after := by
  induction n generalizing e limit with
  | zero =>
      obtain ⟨limit, rfl⟩ := Nat.exists_eq_add_of_lt hlt
      exact ⟨e.step.2, .halted (Prod.ext (haltsAfter_zero_iff.1 h) rfl)⟩
  | succ n ih =>
      obtain ⟨hfirst, hrest⟩ := haltsAfter_succ_iff.1 h
      obtain ⟨limit, rfl⟩ : ∃ rest, limit = rest + 1 := ⟨limit - 1, by omega⟩
      obtain ⟨after, hran⟩ := ih hrest (Nat.lt_of_succ_lt_succ hlt)
      exact ⟨after, .wentOn (Prod.ext hfirst rfl) hran⟩

/-- **Runs in pieces**: where the delay timer holds a byte, a run with one limit and
then a run with another carry out as many instructions, and leave the same machine, as
one run with the sum of the limits.  A run carries out fewer instructions than its limit
exactly if the step after these is the first that does not go on. -/
theorem run_in_pieces {e : Emulator} (hdelay : e.processor.DelayIsByte) :
    (∀ a b : Int, 0 ≤ a → 0 ≤ b →
      ∃ j k first second whole,
        e.run (some a) = (.ok j, first) ∧ first.run (some b) = (.ok k, second) ∧
          e.run (some (a + b)) = (.ok (j + k), whole) ∧
          second.toMachine = whole.toMachine) ∧
      ∀ (m : Int) (k : Nat), k < m → ((e.run (some m)).1 = .ok k ↔ e.HaltsAfter k) := by
  constructor
  · intro a b ha hb
    obtain ⟨j, first, hfirst, hdelay_first⟩ := exists_ran hdelay a.toNat
    obtain ⟨k, second, hsecond, -⟩ := exists_ran hdelay_first b.toNat
    obtain ⟨whole, hwhole, hmachine⟩ := hfirst.append hsecond
    rw [← Int.toNat_add ha hb] at hwhole
    exact ⟨j, k, first, second, whole, run_eq_iff.2 hfirst, run_eq_iff.2 hsecond,
      run_eq_iff.2 hwhole, hmachine⟩
  · intro m k hk
    have hlt : k < m.toNat := by omega
    rw [answer_run_iff]
    constructor
    · rintro ⟨after, hran⟩
      exact hran.haltsAfter hlt
    · intro hhalts
      exact hhalts.ran hlt

/-- An emulator two instructions before the end of memory. -/
def nearEnd : Emulator :=
  let m := Machine.blank 0 0 0x200 (Rng.cycle [])
  { toMachine :=
      { m with
        memory := ⟨Vector.replicate 0x1000 0x71, 0⟩
        processor := { m.processor with pc := 0xFFB, dt := 0xFF } }
    log := .off }

/-- The machine halts right where the first of two runs ends. -/
theorem run_in_pieces_nearEnd :
    nearEnd.processor.DelayIsByte ∧ nearEnd.HaltsAfter 2 ∧
      ∃ first second whole,
        nearEnd.run (some 2) = (.ok 2, first) ∧ first.run (some 3) = (.ok 0, second) ∧
          nearEnd.run (some 5) = (.ok 2, whole) ∧ second.toMachine = whole.toMachine := by
  have hdelay : nearEnd.processor.DelayIsByte := by decide
  have hshort : (nearEnd.run (some 2)).1.toOption = some 2 := by decide +kernel
  have hlong : (nearEnd.run (some 5)).1.toOption = some 2 := by decide +kernel
  obtain ⟨hpieces, hends⟩ := run_in_pieces hdelay
  obtain ⟨j, k, first, second, whole, hfirst, hsecond, hwhole, hmachine⟩ :=
    hpieces 2 3 (by decide) (by decide)
  change nearEnd.run (some 5) = _ at hwhole
  rw [hfirst] at hshort
  rw [hwhole] at hlong
  obtain rfl : j = 2 := Option.some.inj hshort
  have hsum : 2 + k = 2 := Option.some.inj hlong
  obtain rfl : k = 0 := by omega
  exact ⟨hdelay, (hends 5 2 (by decide)).1 (congrArg Prod.fst hwhole), first, second, whole,
    hfirst, hsecond, hwhole, hmachine⟩

end Emulator

end Chip8
