import Chip8.Host
import Chip8.Proofs.Core
import Chip8.Proofs.History

/-!
# Chip8.Proofs.Pacing

A program computes the same in real time as at once.  The host puts frames between
instructions, at moments that a clock decides; a frame without key events counts down
the timers and shows the screen, neither of which `Machine.untimed` has.  So one
reading of the clock either waits, or is a step of a machine that is the same up to
timers and the mark of the screen (`advanced_of_headless`), and a run of the host is
a run of the emulator with something in between (`runOn_paced`).
-/

namespace Chip8

namespace Host

/-! ## what was carried out -/

/-- The instruction that a reading leads to, if the number of steps says that there was
one. -/
def newlyCarriedOut (h after : Host) : List Instruction :=
  if h.steps < after.steps then after.emulator.lastOp.toList else []

/-- The instructions that the host carries out as long as there are readings. -/
def carriedOn (h : Host) (pace : Pace) (clock : Clock) : List Instruction :=
  match _hread : clock.read? with
  | none => []
  | some (t, rest) =>
    match h.advance pace t with
    | (.going pace, after) => h.newlyCarriedOut after ++ carriedOn after pace rest
    | (.ended _, _) => []
termination_by clock.remaining
decreasing_by exact Clock.remaining_lt_of_read? _hread

/-- The instructions that a run carries out, in order. -/
def carriedOut (h : Host) (clock : Clock) : List Instruction := h.start.carriedOn .ready clock

/-! ## what a reading leads to -/

/-- Showing the screen changes nothing but its mark. -/
theorem untimed_refresh (h : Host) :
    h.refresh.emulator.toMachine.untimed = h.emulator.toMachine.untimed := by
  unfold refresh
  split <;> rfl

theorem steps_refresh (h : Host) : h.refresh.steps = h.steps := by
  unfold refresh
  split <;> rfl

theorem inputs_refresh (h : Host) : h.refresh.inputs = h.inputs := by
  unfold refresh
  split <;> rfl

/-- Where the host answers a step, the emulator does, too. -/
theorem step_of_ok {h : Host} {goesOn : Bool} {after : Emulator}
    (hstep : h.step = (.ok goesOn, after)) : h.emulator.step = (.ok goesOn, after) := by
  unfold step at hstep
  split at hstep
  · exact hstep
  · split at hstep
    · exact hstep
    · cases hstep

/-- What a reading can lead to without key events: nothing yet, or a step of a machine
that differs from the one of the host in its timers and the mark of its screen. -/
inductive Advanced (h : Host) : Progress × Host → Prop
  | waited (pace : Pace) : Advanced h (.going pace, h)
  | carriedOut {m : Machine} {pace : Pace} {after : Host}
      (hm : m.untimed = h.emulator.toMachine.untimed)
      (hstep : m.step = (.ok true, after.emulator.toMachine))
      (hsteps : after.steps = h.steps + 1) (hinputs : after.inputs = h.inputs) :
      Advanced h (.going pace, after)
  | halted {m : Machine} {after : Host} {ending : Ending}
      (hm : m.untimed = h.emulator.toMachine.untimed)
      (hstep : m.step = (.ok false, after.emulator.toMachine))
      (hreason : after.emulator.haltReason = ending) (hsteps : after.steps = h.steps) :
      Advanced h (.ended (.ok ending), after)
  | refused (cause : Fault) (after : Host) : Advanced h (.ended (.error cause), after)

theorem advanced_stepAt {h before : Host}
    (hm : before.emulator.toMachine.untimed = h.emulator.toMachine.untimed)
    (hsteps : before.steps = h.steps) (hinputs : before.inputs = h.inputs) (t : Time) :
    Advanced h (before.stepAt t) := by
  unfold stepAt
  cases hstep : before.step with
  | mk answer after =>
      match answer with
      | .ok true =>
          have hmachine := Emulator.machine_step_of_step (step_of_ok hstep)
          exact .carriedOut hm hmachine (congrArg (· + 1) hsteps) hinputs
      | .ok false =>
          have hmachine := Emulator.machine_step_of_step (step_of_ok hstep)
          refine .halted hm ?_ ?_ ?_
          · exact hmachine
          · rfl
          · exact hsteps
      | .error cause => exact .refused cause _

/-- Without key events, a frame is a tick and a look at the screen. -/
theorem frame_of_headless {h : Host} (hheadless : h.inputs.headless = true) :
    let shown := { h with emulator := h.emulator.tick }.refresh
    h.frame = (false, { shown with frames := shown.frames + 1 }) := by
  dsimp only
  unfold frame Inputs.process
  rw [hheadless]
  rfl

/-- A reading leads to nothing yet or to a step. -/
theorem advanced_of_headless {h : Host} (hheadless : h.inputs.headless = true) (pace : Pace)
    (t : Time) : Advanced h (h.advance pace t) := by
  cases pace with
  | waiting due =>
      unfold advance
      simp only
      split
      · exact .waited _
      · exact .waited _
  | ready =>
      change Advanced h (h.turn t)
      unfold turn
      split
      · rw [frame_of_headless hheadless]
        refine advanced_stepAt ?_ ?_ ?_ t
        · exact untimed_refresh { h with emulator := h.emulator.tick }
        · exact steps_refresh { h with emulator := h.emulator.tick }
        · exact inputs_refresh { h with emulator := h.emulator.tick }
      · exact advanced_stepAt rfl rfl rfl t

/-! ## one reading against one step -/

theorem newlyCarriedOut_self (h : Host) : h.newlyCarriedOut h = [] :=
  if_neg (Nat.lt_irrefl h.steps)

theorem newlyCarriedOut_of_step {h after : Host} {i : Instruction}
    (hsteps : after.steps = h.steps + 1) (hlast : after.emulator.lastOp = some i) :
    h.newlyCarriedOut after = [i] := by
  rw [newlyCarriedOut, if_pos (by omega), hlast]
  rfl

/-- Where the machine of the host carries out an instruction, so does the emulator on its
own, unless it is the one that copies the delay timer. -/
theorem step_alike {m after : Machine} {e : Emulator} {i : Instruction}
    (hm : m.untimed = e.toMachine.untimed) (hstep : m.step = (.ok true, after))
    (hlast : after.lastOp = some i) (hi : i.opcode ≠ .getDelay) :
    ∃ e', e.step = (.ok true, e') ∧ after.untimed = e'.toMachine.untimed ∧
      e'.lastOp = some i := by
  have hdelay : ∀ j ∈ after.lastOp, j.opcode ≠ .getDelay := by
    intro j hj
    rw [hlast] at hj
    obtain rfl := Option.some.inj hj
    exact hi
  obtain ⟨m', hstep', hafter⟩ := Machine.step_untimed hm hstep fun _ => hdelay
  obtain ⟨e', he', rfl⟩ := Emulator.exists_step hstep'
  obtain ⟨-, -, hop, -⟩ := Machine.untimed_eq_iff.1 hafter
  exact ⟨e', he', hafter, hop ▸ hlast⟩

/-- Where the machine of the host halts, so does the emulator on its own. -/
theorem halt_alike {m after : Machine} {e : Emulator} (hm : m.untimed = e.toMachine.untimed)
    (hstep : m.step = (.ok false, after)) :
    ∃ e', e.step = (.ok false, e') ∧ after.untimed = e'.toMachine.untimed := by
  obtain ⟨m', hstep', hafter⟩ := Machine.step_untimed hm hstep (by simp)
  obtain ⟨e', he', rfl⟩ := Emulator.exists_step hstep'
  exact ⟨e', he', hafter⟩

/-! ## runs -/

theorem runOn_of_going {h after : Host} {pace pace' : Pace} {clock rest : Clock} {t : Time}
    (hread : clock.read? = some (t, rest)) (hgoing : h.advance pace t = (.going pace', after)) :
    h.runOn pace clock = after.runOn pace' rest ∧
      h.carriedOn pace clock = h.newlyCarriedOut after ++ after.carriedOn pace' rest := by
  constructor
  · rw [runOn, hread]
    simp only [hgoing]
  · rw [carriedOn, hread]
    simp only [hgoing]

theorem runOn_of_ended {h after : Host} {pace : Pace} {clock rest : Clock} {t : Time}
    {r : Except Fault Ending} (hread : clock.read? = some (t, rest))
    (hended : h.advance pace t = (.ended r, after)) :
    h.runOn pace clock = (r.mapError .refused, after, rest) ∧ h.carriedOn pace clock = [] := by
  constructor
  · rw [runOn, hread]
    simp only [hended]
  · rw [carriedOn, hread]
    simp only [hended]

/-- A run of the host that ends, and carries out no instruction that copies the delay
timer, ends because the machine halts; the emulator on its own carries out the same
instructions, halts as well, and differs in timers and the mark of the screen only. -/
theorem runOn_paced {h h' : Host} {pace : Pace} {clock clock' : Clock} {ending : Ending}
    (hheadless : h.inputs.headless = true)
    (hrun : h.runOn pace clock = (.ok ending, h', clock'))
    (hdelay : ∀ i ∈ h.carriedOn pace clock, i.opcode ≠ .getDelay) {e : Emulator}
    (he : h.emulator.toMachine.untimed = e.toMachine.untimed) (done : Nat) :
    let n := (h.carriedOn pace clock).length
    h'.steps = h.steps + n ∧ (∃ reason, ending = some reason) ∧
      h'.emulator.haltReason = ending ∧ e.carriedOut (n + 1) = h.carriedOn pace clock ∧
      ∃ after, e.runOn done (n + 1) = (.ok (done + n), after) ∧
        h'.emulator.toMachine.untimed = after.toMachine.untimed := by
  -- along the readings: `e` is where the emulator on its own is after as many instructions
  induction h, pace, clock using Host.runOn.induct generalizing e done with
  | case1 h pace clock hread =>
      rw [runOn, hread] at hrun
      cases hrun
  | case2 h pace clock t rest hread pace' between hadvance ih =>
      obtain ⟨hrest_run, hlist_rest⟩ := runOn_of_going hread hadvance
      have hadvanced := advanced_of_headless hheadless pace t
      rw [hadvance] at hadvanced
      rw [hrest_run] at hrun
      rw [hlist_rest] at hdelay ⊢
      cases hadvanced with
      | waited =>
          rw [newlyCarriedOut_self, List.nil_append] at hdelay ⊢
          exact ih hheadless hrun hdelay he done
      | carriedOut hm hstep hsteps hinputs =>
          obtain ⟨-, i, -, -, -, -, -, hlast⟩ := Machine.carriedOut_of_step hstep
          rw [newlyCarriedOut_of_step hsteps hlast, List.singleton_append] at hdelay ⊢
          obtain ⟨hi, hdelay_rest⟩ := List.forall_mem_cons.1 hdelay
          obtain ⟨e', he', hbetween, hlast'⟩ := step_alike (hm.trans he) hstep hlast hi
          obtain ⟨hcount, hending, hreason, hlist, after, hafter, hsame⟩ :=
            ih (hinputs ▸ hheadless) hrun hdelay_rest hbetween (done + 1)
          rw [List.length_cons]
          refine ⟨?_, hending, hreason, ?_, after, ?_, hsame⟩
          · rw [hcount, hsteps]
            omega
          · rw [Emulator.carriedOut_of_true he' hlast', hlist]
          · rw [Emulator.runOn_succ, he', ← Nat.add_assoc, Nat.add_right_comm]
            exact hafter
  | case3 h pace clock t rest hread r between hadvance =>
      obtain ⟨hrun_ended, hlist_nil⟩ := runOn_of_ended hread hadvance
      have hadvanced := advanced_of_headless hheadless pace t
      rw [hadvance] at hadvanced
      rw [hrun_ended] at hrun
      rw [hlist_nil]
      cases hadvanced with
      | halted hm hstep hreason hsteps =>
          cases hrun
          obtain ⟨reason, hsome⟩ := Machine.halted_of_step hstep
          obtain ⟨e', he', hafter⟩ := halt_alike (hm.trans he) hstep
          refine ⟨hsteps, ⟨reason, hreason ▸ hsome⟩, hreason, ?_, e', ?_, hafter⟩
          · exact Emulator.carriedOut_of_false he' 0
          · rw [Emulator.runOn_succ, he']
            rfl
      | refused cause after => cases hrun

/-- A run shows the screen once more after the last reading. -/
theorem run_eq {h h' : Host} {clock clock' : Clock} {r : Except HostError Ending}
    (hrun : h.run clock = (r, h', clock')) :
    ∃ last, h.start.runOn .ready clock = (r, last, clock') ∧ h' = last.refresh := by
  unfold run at hrun
  generalize h.start.runOn .ready clock = result at hrun ⊢
  obtain ⟨r, last, clock'⟩ := result
  cases hrun
  exact ⟨last, rfl, rfl⟩

/-- What `runOn_paced` says of going on holds of whole runs. -/
theorem run_paced {h h' : Host} {clock clock' : Clock} {ending : Ending}
    (hheadless : h.inputs.headless = true) (hrun : h.run clock = (.ok ending, h', clock'))
    (hdelay : ∀ i ∈ h.carriedOut clock, i.opcode ≠ .getDelay) {e : Emulator}
    (he : h.emulator.toMachine = e.toMachine) :
    let n := (h.carriedOut clock).length
    h'.steps = h.steps + n ∧ (∃ reason, ending = some reason) ∧
      h'.emulator.haltReason = ending ∧ e.carriedOut (n + 1) = h.carriedOut clock ∧
      ∃ after, e.run (some (n + 1 : Nat)) = (.ok n, after) ∧
        h'.emulator.toMachine.untimed = after.toMachine.untimed := by
  obtain ⟨last, hlast, rfl⟩ := run_eq hrun
  have hstart : h.start.emulator.toMachine.untimed = e.toMachine.untimed :=
    congrArg Machine.untimed he
  obtain ⟨hsteps, hending, hreason, hlist, after, hafter, hsame⟩ :=
    runOn_paced (h := h.start) hheadless hlast hdelay hstart 0
  have hshown := untimed_refresh last
  refine ⟨?_, hending, ?_, hlist, after, ?_, ?_⟩
  · rw [steps_refresh, hsteps]
    rfl
  · rw [← hreason]
    exact (Machine.untimed_eq_iff.1 hshown).2.2.2.1
  · rw [Nat.zero_add] at hafter
    exact hafter
  · rw [hshown, hsame]

/-- **Pacing is invisible**: if a run without key events ends, whatever the clock and the
speed, and carries out no instruction that copies the delay timer, then it ends because
the machine halts, the emulator on its own carries out the same instructions and halts,
and the two machines are equal but for their timers and the mark of the screen.  Any
other such run from the same machine ends in the same way. -/
theorem pacing_invisible {h h' : Host} {clock clock' : Clock} {ending : Ending}
    (hheadless : h.inputs.headless = true) (hrun : h.run clock = (.ok ending, h', clock'))
    (hdelay : ∀ i ∈ h.carriedOut clock, i.opcode ≠ .getDelay) :
    let n := (h.carriedOut clock).length
    (h'.steps = h.steps + n ∧
      (∃ reason, ending = some reason ∧ h'.emulator.haltReason = some reason) ∧
      ∃ after, h.emulator.run (some (n + 1 : Nat)) = (.ok n, after) ∧
        h.emulator.carriedOut (n + 1) = h.carriedOut clock ∧
        h'.emulator.toMachine.untimed = after.toMachine.untimed) ∧
      ∀ (g g' : Host) (other other' : Clock) (ending' : Ending),
        g.emulator.toMachine = h.emulator.toMachine → g.inputs.headless = true →
        g.run other = (.ok ending', g', other') →
        (∀ i ∈ g.carriedOut other, i.opcode ≠ .getDelay) →
        ending' = ending ∧ g.carriedOut other = h.carriedOut clock ∧
          g'.emulator.toMachine.untimed = h'.emulator.toMachine.untimed := by
  obtain ⟨hsteps, ⟨reason, hending⟩, hreason, hlist, after, hafter, hsame⟩ :=
    run_paced hheadless hrun hdelay rfl
  refine ⟨⟨hsteps, ⟨reason, hending, hreason.trans hending⟩, after, hafter, hlist, hsame⟩, ?_⟩
  intro g g' other other' ending' hmachine hheadless' hrun' hdelay'
  obtain ⟨-, -, hreason', hlist', after', hafter', hsame'⟩ :=
    run_paced hheadless' hrun' hdelay' hmachine
  -- both runs of the emulator end before their limits, so they are one
  obtain ⟨hcount, rfl⟩ := Emulator.runOn_unique hafter hafter'
  have hmachines : g'.emulator.toMachine.untimed = h'.emulator.toMachine.untimed :=
    hsame'.trans hsame.symm
  refine ⟨?_, ?_, hmachines⟩
  · rw [← hreason, ← hreason']
    exact (Machine.untimed_eq_iff.1 hmachines).2.2.2.1
  · rw [← hlist, ← hlist', hcount]

/-- A host without key events, one instruction before the end of memory and with both
timers running. -/
def finishing : Host :=
  let m := Machine.blank 0 0 0x200 (Rng.cycle [])
  { emulator :=
      { toMachine :=
          { m with
            memory := ⟨Vector.replicate 0x1000 0x60, 0⟩
            processor := { m.processor with pc := 0xFFD, dt := 5, st := 3 } }
        log := .off }
    renderer := Renderer.headless none
    inputs :=
      { keymap := ⟨(List.range 16).map fun (k : Nat) => (k : Int), by decide, by decide⟩
        headless := true
        batches := [] }
    interval := none
    nextFrame := 0
    frames := 0
    steps := 0 }

theorem pacing_invisible_finishing :
    let clock : Clock := { reading := fun k => (k : Rat), limit := 2 }
    finishing.inputs.headless = true ∧
      (∀ i ∈ finishing.carriedOut clock, i.opcode ≠ .getDelay) ∧
      ∃ h' clock', finishing.run clock = (.ok (some .endOfMemory), h', clock') ∧ h'.steps = 1 ∧
        ∃ after, finishing.emulator.run (some 2) = (.ok 1, after) ∧
          h'.emulator.toMachine.untimed = after.toMachine.untimed := by
  intro clock
  have hlist : finishing.carriedOut clock = [⟨.load, ((0, 0x60) : Register × UInt8)⟩] := by
    decide +kernel
  have hdelay : ∀ i ∈ finishing.carriedOut clock, i.opcode ≠ .getDelay := by
    rw [hlist]
    decide
  have hended : (finishing.run clock).1.toOption = some (some .endOfMemory) := by
    decide +kernel
  cases hrun : finishing.run clock with
  | mk r rest =>
      obtain ⟨h', clock'⟩ := rest
      rw [hrun] at hended
      cases r with
      | error e => cases hended
      | ok ending =>
          obtain rfl : ending = some .endOfMemory := Option.some.inj hended
          obtain ⟨⟨hsteps, -, after, hafter, -, hsame⟩, -⟩ := pacing_invisible rfl hrun hdelay
          rw [hlist] at hsteps hafter
          exact ⟨rfl, hdelay, h', clock', rfl, hsteps, after, hafter, hsame⟩

end Host

end Chip8
