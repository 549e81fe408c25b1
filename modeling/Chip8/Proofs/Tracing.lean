import Mathlib.Data.List.Forall2
import Chip8.Proofs.Congruence
import Chip8.Proofs.NoFault
import Chip8.Proofs.Running

/-!
# Chip8.Proofs.Tracing

Tracing is faithful and does no harm.  A log keeps the lines from its threshold up, so what is
reported does not depend on what is kept: `Log.Took` says that certain lines were reported and
that those that are kept were added, and `Log.Traced` which of them are of the least level.  A
step reports the state of the processor before the instruction that it has found, which is the
line that `Emulator.trace` shows, and besides that only what is more important; so the lines of
the least level are the traces of the steps, in order (`traced_step`, `traced_runOn`).

The log has no influence on anything else, since what calls do to one of two equal machines they
do to the other (`equality_congruence`).
-/

namespace Chip8

/-- The texts of the lines of the least level. -/
def debugTexts (lines : List Entry) : List String :=
  (lines.filter (·.level = .debug)).map Entry.text

theorem debugTexts_append (lines lines' : List Entry) :
    debugTexts (lines ++ lines') = debugTexts lines ++ debugTexts lines' := by
  rw [debugTexts, List.filter_append, List.map_append, debugTexts, debugTexts]

/-! ## what a log takes -/

namespace Log

/-- These lines have been reported, and those that are kept have been added. -/
structure Took (log : Log) (lines : List Entry) (after : Log) : Prop where
  threshold : after.threshold = log.threshold
  entries : after.entries.toList = log.entries.toList ++ lines.filter (log.keeps ·.level)

/-- What has been reported traces these texts, whether or not it is kept. -/
def Traced (log : Log) (texts : List String) (after : Log) : Prop :=
  ∃ lines, Took log lines after ∧ debugTexts lines = texts

variable {log between after : Log} {lines lines' : List Entry} {texts texts' : List String}

namespace Took

theorem append (h : Took log lines between) (h' : Took between lines' after) :
    Took log (lines ++ lines') after where
  threshold := h'.threshold.trans h.threshold
  entries := by
    have hkeeps : between.keeps = log.keeps := by
      funext level
      unfold keeps
      rw [h.threshold]
    rw [h'.entries, h.entries, hkeeps, List.filter_append, List.append_assoc]

theorem add (log : Log) (level : Level) (source : Source) (text : Unit → String) :
    Took log [⟨level, source, text ()⟩] (log.add level source text) := by
  refine ⟨log.threshold_add level source text, ?_⟩
  unfold Log.add
  split
  · rename_i hkept
    simp [hkept]
  · rename_i hleft
    simp [hleft]

/-- A log that keeps all lines has got all of them. -/
theorem entries_of_debug (h : Took log lines after) (hlog : log.threshold = some .debug) :
    after.entries.toList = log.entries.toList ++ lines := by
  have hkeeps (entry : Entry) : log.keeps entry.level = true := by
    unfold keeps
    rw [hlog]
    cases entry.level <;> rfl
  rw [h.entries, List.filter_eq_self.2 fun entry _ => hkeeps entry]

/-- A log that keeps nothing has got none. -/
theorem entries_of_off (h : Took log lines after) (hlog : log.threshold = none) :
    after.entries.toList = log.entries.toList := by
  have hkeeps (entry : Entry) : log.keeps entry.level = false := by
    unfold keeps
    rw [hlog]
  have hnone : lines.filter (log.keeps ·.level) = [] := by
    simp [hkeeps]
  rw [h.entries, hnone, List.append_nil]

end Took

namespace Traced

protected theorem nil (log : Log) : Traced log [] log := by
  refine ⟨[], ⟨rfl, ?_⟩, rfl⟩
  rw [List.filter_nil, List.append_nil]

theorem append (h : Traced log texts between) (h' : Traced between texts' after) :
    Traced log (texts ++ texts') after := by
  obtain ⟨lines, htook, rfl⟩ := h
  obtain ⟨lines', htook', rfl⟩ := h'
  exact ⟨lines ++ lines', htook.append htook', debugTexts_append lines lines'⟩

theorem add_debug (log : Log) (source : Source) (text : Unit → String) :
    Traced log [text ()] (log.add .debug source text) :=
  ⟨_, .add log .debug source text, rfl⟩

/-- What is more important than the least level is not a trace. -/
theorem add_of_ne (log : Log) (level : Level) (source : Source) (text : Unit → String)
    (hlevel : level ≠ .debug) : Traced log [] (log.add level source text) := by
  refine ⟨_, .add log level source text, ?_⟩
  simp [debugTexts, hlevel]

end Traced

end Log

/-! ## what steps report -/

namespace Emulator

/-- The line of the instruction that comes next, if the word that is fetched is one. -/
def traced? (e : Emulator) : Option (Except Fault String) := do
  let word ← e.fetch
  let i ← Instruction.decode word
  return e.trace e.processor.pc word (.operation i.toOperation)

theorem traced?_of_noRoom {e : Emulator} (h : ¬e.HasRoom) : e.traced? = none := by
  unfold traced?
  rw [Machine.fetch_of_noRoom h]
  rfl

/-- Tracing an instruction does not fail, whatever the processor holds. -/
theorem traced?_of_room {e : Emulator} (h : e.HasRoom) :
    e.traced? = (Instruction.decode e.wordHere).map fun i =>
      .ok (traceLine e.toMachine e.processor.pc e.wordHere i.mnemonic) := by
  unfold traced?
  rw [Machine.fetch_of_room h, Option.bind_eq_bind, Option.bind_some]
  cases Instruction.decode e.wordHere <;> rfl

theorem filterMap_traced?_cons (e : Emulator) (rest : List Emulator) :
    (e :: rest).filterMap traced? = e.traced?.toList ++ rest.filterMap traced? := by
  cases h : e.traced? <;> simp [h]

theorem log_withMachine (e : Emulator) (m : Machine) : (e.withMachine m).log = e.log := rfl

theorem traced_note (e : Emulator) (level : Level) (text : Unit → String)
    (hlevel : level ≠ .debug) : e.log.Traced [] (e.note level text).log :=
  .add_of_ne e.log level .emulator text hlevel

theorem traced_noteStackHalt (e : Emulator) (reason : HaltReason) :
    e.log.Traced [] (e.noteStackHalt reason).log := by
  unfold noteStackHalt
  split
  · exact e.traced_note .warning _ (by decide)
  · split
    · exact e.traced_note .warning _ (by decide)
    · exact .nil e.log
  · exact .nil e.log

/-- Carrying out an instruction traces nothing, also where the call stack stops it. -/
theorem traced_carryOut (e : Emulator) (i : Instruction) :
    e.log.Traced [] (e.carryOut i).2.log := by
  cases h : e.toMachine.perform i with
  | ok m =>
      rw [carryOut_of_ok h]
      exact .nil e.log
  | error stop =>
      cases stop with
      | fault cause =>
          rw [carryOut_of_fault h]
          exact .nil e.log
      | halt reason =>
          simp only [carryOut, h]
          exact e.traced_noteStackHalt reason

/-- A step traces the instruction that comes next, if there is one, before it is carried out. -/
theorem traced_step (e : Emulator) :
    ∃ texts, e.log.Traced texts e.step.2.log ∧ texts.map Except.ok = e.traced?.toList := by
  unfold step
  by_cases hroom : e.HasRoom
  · rw [traced?_of_room hroom, e.toMachine.decode_wordHere]
    simp only [Machine.fetch_of_room hroom]
    cases hi : Instruction.ofWord? e.wordHere with
    | none =>
        simp only [log_withMachine]
        exact ⟨[], traced_note { e with lastOp := none } .info _ (by decide), rfl⟩
    | some i =>
        have hline := Log.Traced.add_debug e.log .emulator fun _ =>
          traceLine (e.toMachine.found i) e.processor.pc e.wordHere i.mnemonic
        have htraced := hline.append ((e.arrive e.wordHere i).traced_carryOut i)
        dsimp only
        generalize (e.arrive e.wordHere i).carryOut i = r at htraced ⊢
        obtain ⟨answer, after⟩ := r
        match answer with
        | .ok true | .ok false | .error _ => exact ⟨_, htraced, rfl⟩
  · rw [traced?_of_noRoom hroom]
    simp only [Machine.fetch_of_noRoom hroom, log_withMachine]
    exact ⟨[], e.traced_note .info _ (by decide), rfl⟩

/-- A run traces, in order, the instructions that come next where it takes its steps from. -/
theorem traced_runOn (e : Emulator) (done limit : Nat) :
    ∃ texts, e.log.Traced texts (e.runOn done limit).2.log ∧
      texts.map Except.ok = (e.stepsOn limit).filterMap traced? := by
  induction limit generalizing e done with
  | zero => exact ⟨[], .nil e.log, rfl⟩
  | succ limit ih =>
      obtain ⟨texts, hstep, htexts⟩ := e.traced_step
      rw [runOn_succ, stepsOn]
      generalize e.step = r at hstep ⊢
      obtain ⟨answer, after⟩ := r
      have hlast : texts.map Except.ok = [e].filterMap traced? := by
        rw [htexts, filterMap_traced?_cons, List.filterMap_nil, List.append_nil]
      cases answer with
      | error cause => exact ⟨texts, hstep, hlast⟩
      | ok goesOn =>
          cases goesOn with
          | false => exact ⟨texts, hstep, hlast⟩
          | true =>
              obtain ⟨rest, hrest, htexts'⟩ := ih after (done + 1)
              refine ⟨_, hstep.append hrest, ?_⟩
              rw [List.map_append, htexts, htexts']
              exact (filterMap_traced?_cons e _).symm

/-! ## which steps are traced -/

/-- Nothing is traced where there is no room for an instruction, or no instruction. -/
theorem traced?_eq_none_iff {e : Emulator} :
    e.traced? = none ↔
      ∃ word op, e.Stuck .endOfMemory word op ∨ e.Stuck .invalidInstruction word op := by
  constructor
  · intro hnone
    by_cases hroom : e.HasRoom
    · rw [traced?_of_room hroom, Option.map_eq_none_iff] at hnone
      exact ⟨_, _, .inr (.invalidInstruction hroom hnone)⟩
    · unfold Machine.HasRoom at hroom
      exact ⟨_, _, .inl (.endOfMemory (by omega))⟩
  · rintro ⟨word, op, hstuck | hstuck⟩
    · cases hstuck with
      | endOfMemory hpc =>
          refine traced?_of_noRoom ?_
          unfold Machine.HasRoom
          omega
    · cases hstuck with
      | invalidInstruction hroom hnone =>
          rw [traced?_of_room hroom, hnone]
          rfl

/-- What is traced is carried out, or the call stack stops it. -/
theorem isSome_traced?_iff {e : Emulator} (hdelay : e.processor.DelayIsByte) :
    e.traced?.isSome ↔
      e.step.1 = .ok true ∨
        ∃ word op, e.Stuck .stackUnderflow word op ∨ e.Stuck .stackOverflow word op := by
  constructor
  · intro hsome
    have hnone : e.traced? ≠ none := Option.isSome_iff_ne_none.1 hsome
    obtain ⟨goesOn, hok⟩ := e.step_fst ▸ Machine.step_ok hdelay
    cases goesOn with
    | true => exact .inl hok
    | false =>
        obtain ⟨reason, word, op, hstuck⟩ := Machine.stuck_of_step (e.step_fst ▸ hok)
        cases reason with
        | stackUnderflow => exact .inr ⟨word, op, .inl hstuck⟩
        | stackOverflow => exact .inr ⟨word, op, .inr hstuck⟩
        | endOfMemory => exact absurd (traced?_eq_none_iff.2 ⟨word, op, .inl hstuck⟩) hnone
        | invalidInstruction => exact absurd (traced?_eq_none_iff.2 ⟨word, op, .inr hstuck⟩) hnone
  · rintro (hgoes | ⟨word, op, hstuck | hstuck⟩)
    · refine Option.isSome_iff_ne_none.2 fun hnone => ?_
      -- a machine that is stuck does not go on
      obtain ⟨word, op, hstuck | hstuck⟩ := traced?_eq_none_iff.1 hnone <;>
      · rw [e.step_fst, Machine.step_of_stuck hstuck] at hgoes
        cases hgoes
    · cases hstuck with
      | stackUnderflow hroom hi =>
          rw [traced?_of_room hroom, hi]
          rfl
    · cases hstuck with
      | stackOverflow hroom hi =>
          rw [traced?_of_room hroom, hi]
          rfl

end Emulator

/-! ## the log does not matter -/

theorem SameUpTo.refl {ε α : Type} (r : Except ε α) : SameUpTo Eq r r := by
  cases r with
  | ok a => exact .ok rfl
  | error cause => exact .error cause

theorem Machine.equality_congruence : Machine.Congruence id Eq where
  memory := congrArg Machine.memory
  pc := fun h => h ▸ rfl
  programStart := congrArg Machine.programStart
  keypad := congrArg Machine.keypad
  perform := fun h _ => h ▸ .refl _
  withLastOp := fun h _ => h ▸ rfl
  withHalt := fun h _ _ => h ▸ rfl
  withProgram := fun h bytes => congrArg (Machine.withProgram · bytes) h
  withKeypad := fun h _ => h ▸ rfl
  timers := fun h => h ▸ rfl
  tick := congrArg (Machine.onProcessor · Processor.tick)
  installFont := fun h _ => h ▸ ⟨rfl, rfl⟩
  reset := fun h => h ▸ ⟨rfl, rfl⟩

namespace Emulator

/-- The emulator with a log that keeps the lines from a level up from now on. -/
def logging (e : Emulator) (threshold : Option Level) : Emulator :=
  { e with log := { e.log with threshold } }

/-- Emulators with the same machines trace the same. -/
theorem filterMap_traced?_congr {es fs : List Emulator}
    (h : List.Forall₂ (fun e f => e.toMachine = f.toMachine) es fs) :
    es.filterMap traced? = fs.filterMap traced? := by
  induction h with
  | nil => rfl
  | @cons e f es fs hsame hrest ih =>
      have htraced : e.traced? = f.traced? := by
        unfold traced? trace
        rw [hsame]
      rw [filterMap_traced?_cons, filterMap_traced?_cons, htraced, ih]

theorem delayIsByte_stepsOn {e : Emulator} (hdelay : e.processor.DelayIsByte) (limit : Nat) :
    ∀ s ∈ e.stepsOn limit, s.processor.DelayIsByte :=
  (@keptBy_runOn (fun _ => True) (fun m => m.processor.DelayIsByte)
    (fun hm _ => Machine.delayIsByte_step hm) e hdelay 0 limit fun _ _ => trivial).2

/-- **Tracing is faithful and does no harm**: whatever the machine is, if its delay timer holds a
byte, a run with a log that keeps all lines has the same answer as one with a log that keeps none
and leaves the same machine.  What the lines of the least level say that it has added is, in
order, what `trace` shows of each state from which a step is taken and in which an instruction
comes next; these are the steps that carry out their instruction, and one that the call stack
stops, but not one that finds no instruction or no room for one. -/
theorem tracing_faithful {e : Emulator} (hdelay : e.processor.DelayIsByte) (n : Int) :
    let steps := (e.logging none).stepsOn n.toNat
    ∃ k quiet traced lines,
      (e.logging none).run (some n) = (.ok k, quiet) ∧
      (e.logging (some .debug)).run (some n) = (.ok k, traced) ∧
      traced.toMachine = quiet.toMachine ∧
      quiet.log.entries.toList = e.log.entries.toList ∧
      traced.log.entries.toList = e.log.entries.toList ++ lines ∧
      (debugTexts lines).map Except.ok = steps.filterMap traced? ∧
      ∀ s ∈ steps,
        (s.traced?.isSome ↔ s.step.1 = .ok true ∨
          ∃ word op, s.Stuck .stackUnderflow word op ∨ s.Stuck .stackOverflow word op) ∧
        (s.traced? = none ↔
          ∃ word op, s.Stuck .endOfMemory word op ∨ s.Stuck .invalidInstruction word op) := by
  intro steps
  obtain ⟨-, ⟨unkept, hquiet, -⟩, -⟩ := (e.logging none).traced_runOn 0 n.toNat
  obtain ⟨texts, ⟨lines, htook, rfl⟩, htexts⟩ :=
    (e.logging (some .debug)).traced_runOn 0 n.toNat
  obtain ⟨⟨hanswer, hmachine⟩, hsame⟩ :=
    Machine.equality_congruence.runOn (e := e.logging none) (f := e.logging (some .debug)) rfl 0
      n.toNat
  obtain ⟨k, hk⟩ := runOn_ok (e := e.logging none) hdelay 0 n.toNat
  have hdelays := delayIsByte_stepsOn (e := e.logging none) hdelay n.toNat
  refine ⟨k, _, _, lines, Prod.ext hk rfl, Prod.ext (hanswer ▸ hk) rfl, hmachine.symm,
    hquiet.entries_of_off rfl, htook.entries_of_debug rfl, ?_, ?_⟩
  · rw [htexts, ← filterMap_traced?_congr hsame]
  · intro s hs
    exact ⟨isSome_traced?_iff (hdelays s hs), traced?_eq_none_iff⟩

/-- A machine that loads a register and then returns, with no call to return from. -/
def returning : Emulator :=
  let m := Machine.blank 0 0 0x200 (Rng.cycle [])
  { toMachine :=
      { m with
        memory := ⟨Memory.overwrite m.memory.bytes 0x200 [0x61, 0x05, 0x00, 0xEE], 0⟩
        processor := { m.processor with pc := 0x200 } }
    log := .off }

/-- Both instructions are traced, the first one before it has changed its register. -/
theorem tracing_faithful_returning :
    returning.processor.DelayIsByte ∧
      ∃ quiet traced,
        (returning.logging none).run (some 10) = (.ok 1, quiet) ∧
        (returning.logging (some .debug)).run (some 10) = (.ok 1, traced) ∧
        traced.toMachine = quiet.toMachine ∧
        debugTexts traced.log.entries.toList =
          ["V: 0x00000000000000000000000000000000 I: 0x000 DT: 0x00 ST: 0x00 SP: 0"
              ++ " PC: 0x200 OP: 0x6105 IN: LD V1, 0x05",
            "V: 0x00000000000000000000000000000500 I: 0x000 DT: 0x00 ST: 0x00 SP: 0"
              ++ " PC: 0x202 OP: 0x00ee IN: RET"] := by
  have hdelay : returning.processor.DelayIsByte := by decide
  have hanswer : ((returning.logging none).run (some 10)).1.toOption = some 1 := by
    decide +kernel
  obtain ⟨k, quiet, traced, lines, hquiet, htraced, hmachine, -⟩ := tracing_faithful hdelay 10
  rw [hquiet] at hanswer
  obtain rfl : k = 1 := Option.some.inj hanswer
  have hafter : traced = ((returning.logging (some .debug)).run (some 10)).2 :=
    congrArg Prod.snd htraced.symm
  refine ⟨hdelay, quiet, traced, hquiet, htraced, hmachine, ?_⟩
  rw [hafter]
  decide +kernel

end Emulator

end Chip8
