import Chip8.Proofs.Step

/-!
# Chip8.Proofs.Core

What programs compute with.  The core of a machine leaves out the timers, the keys,
the mark of the screen and the notes about the last step.  Instructions do not see
what is left out: `perform_congr` states that machines with one core have one core
after the same instruction, except that the instruction that copies the delay timer
asks for the same delay, and those that look at keys for the same keys.

`step_untimed` is what this comes to for steps of machines that differ in nothing but
their timers and the mark of the screen.
-/

namespace Chip8

/-- Whether an instruction looks at the keys. -/
def Opcode.looksAtKeys : Opcode → Bool
  | skipKeyDown | skipKeyUp | waitKey => true
  | _ => false

/-! ## drawing -/

namespace Screen

variable {w h : Int}

/-- What is drawn does not depend on the mark of the screen. -/
theorem xorPixels_congr {s t : Screen w h} (hpixels : s.shown = t.shown)
    (points : List (Int × Int)) :
    (s.xorPixels points).map (fun r => (r.1, r.2.shown)) =
      (t.xorPixels points).map (fun r => (r.1, r.2.shown)) := by
  obtain ⟨pixels, dirty⟩ := s
  obtain ⟨pixels', dirty'⟩ := t
  obtain rfl : pixels = pixels' := congrArg Screen.pixels hpixels
  cases points with
  | nil => rfl
  | cons p rest => rfl -- the first pixel sets the mark

theorem drawSprite_congr {s t : Screen w h} (hpixels : s.shown = t.shown) (x y : Int)
    (rows : List UInt8) :
    (s.drawSprite x y rows).map (fun r => (r.1, r.2.shown)) =
      (t.drawSprite x y rows).map (fun r => (r.1, r.2.shown)) :=
  xorPixels_congr hpixels _

end Screen

namespace Machine

/-! ## the core -/

/-- The machine without timers, keys, the mark of its screen, and notes. -/
def core (m : Machine) : Machine :=
  { m with
    processor := { m.processor with dt := 0, st := 0 }
    screen := m.screen.shown
    keypad := Keypad.released
    lastOp := none
    haltReason := none
    haltWord := none }

/-- Machines with one core differ in what the core leaves out. -/
theorem eq_of_core {m n : Machine} (h : m.core = n.core) :
    ∃ dt st dirty keypad lastOp haltReason haltWord, n =
      { m with
        processor := { m.processor with dt, st }
        screen := { m.screen with dirty }
        keypad, lastOp, haltReason, haltWord } := by
  refine ⟨n.processor.dt, n.processor.st, n.screen.dirty, n.keypad, n.lastOp, n.haltReason,
    n.haltWord, ?_⟩
  obtain ⟨memory, ⟨v, i, pc, dt, st, stack, rng⟩, ⟨pixels, dirty⟩, keypad, font, start, op, r, w⟩ := m
  obtain ⟨memory', ⟨v', i', pc', dt', st', stack', rng'⟩, ⟨pixels', dirty'⟩, keypad', font', start',
    op', r', w'⟩ := n
  simp only [core, Screen.shown, mk.injEq, Processor.mk.injEq, Screen.mk.injEq, true_and,
    and_true] at h
  obtain ⟨rfl, ⟨rfl, rfl, rfl, rfl, rfl⟩, rfl, rfl, rfl⟩ := h
  rfl

theorem drawAtIndex_congr {m n : Machine} (h : m.core = n.core) (x y : Register) (k : Nibble) :
    (m.drawAtIndex x y k).map core = (n.drawAtIndex x y k).map core := by
  obtain ⟨dt, st, dirty, keypad, op, r, w, rfl⟩ := eq_of_core h
  obtain ⟨hit, s, hs⟩ := m.screen.drawSprite_total (by decide) (m.reg x).toNat (m.reg y).toNat
    (m.rowsAtIndex k)
  obtain ⟨hit', t, ht⟩ := Screen.drawSprite_total { m.screen with dirty } (by decide)
    (m.reg x).toNat (m.reg y).toNat (m.rowsAtIndex k)
  have hsame : hit = hit' ∧ s.shown = t.shown := by
    have hcongr := Screen.drawSprite_congr (s := m.screen) (t := { m.screen with dirty }) rfl
      (m.reg x).toNat (m.reg y).toNat (m.rowsAtIndex k)
    rw [hs, ht] at hcongr
    exact Prod.mk.inj (Except.ok.inj hcongr)
  rw [drawAtIndex_eq hs, drawAtIndex_eq ht]
  obtain ⟨rfl, hshown⟩ := hsame
  change Except.ok _ = Except.ok _
  simp only [core, hshown]
  rfl

/-! ## instructions -/

/-- The core of what a drawing instruction leaves is decided by what is drawn. -/
theorem perform_draw_core (m : Machine) (x y : Register) (k : Nibble) :
    (m.perform ⟨.draw, (x, y, k)⟩).map core =
      (demand ((m.drawAtIndex x y k).map core)).map next := by
  simp only [perform]
  cases m.drawAtIndex x y k <;> rfl

theorem perform_draw_congr {m n : Machine} (h : m.core = n.core) (x y : Register) (k : Nibble) :
    (m.perform ⟨.draw, (x, y, k)⟩).map core = (n.perform ⟨.draw, (x, y, k)⟩).map core := by
  rw [perform_draw_core, perform_draw_core, drawAtIndex_congr h]

/-- Whether an instruction does what it does is decided by the core, and so is the core
of the machine that it leaves. -/
theorem perform_congr {m n : Machine} {i : Instruction} (h : m.core = n.core)
    (hdelay : i.opcode = .getDelay → m.processor.dt = n.processor.dt)
    (hkeys : i.opcode.looksAtKeys = true → m.keypad = n.keypad) :
    (m.perform i).map core = (n.perform i).map core := by
  have hdraw := perform_draw_congr h
  obtain ⟨dt, st, dirty, keypad, op, r, w, rfl⟩ := eq_of_core h
  obtain ⟨op, o⟩ := i
  cases op
  case ret =>
    simp only [perform, Processor.ret, CallStack.pop]
    cases m.processor.stack.frames <;> rfl
  case call =>
    simp only [perform, Processor.call, CallStack.push]
    cases m.processor.stack.isFull <;> rfl
  case random =>
    obtain ⟨x, kk⟩ := o
    simp only [perform, Processor.random]
    cases byte? (andBits m.processor.rng.next kk.toNat) <;> rfl
  case draw =>
    obtain ⟨x, y, k⟩ := o
    exact hdraw x y k
  case getDelay =>
    obtain rfl : m.processor.dt = dt := hdelay rfl
    simp only [perform, Processor.getDelay]
    cases byte? m.processor.dt <;> rfl
  case skipKeyDown | skipKeyUp =>
    change Register at o
    obtain rfl : m.keypad = keypad := hkeys rfl
    simp only [perform, keyIsDown_eq]
    rfl
  case waitKey =>
    obtain rfl : m.keypad = keypad := hkeys rfl
    simp only [perform]
    cases m.keypad.firstDown <;> rfl
  case toBcd =>
    simp only [perform, bcdDigits_toNat, writeAll_eq]
    rfl
  case storeRegs =>
    change Register at o
    simp only [perform, dumpRegisters_eq]
    rfl
  case loadRegs =>
    change Register at o
    simp only [perform, restoreRegisters_eq]
    rfl
  all_goals rfl

/-! ## steps -/

/-- The machine without its timers and the mark of its screen. -/
def untimed (m : Machine) : Machine :=
  { m with processor := { m.processor with dt := 0, st := 0 }, screen := m.screen.shown }

/-- Machines that differ in nothing but their timers and the mark of the screen have
one core, the same keys and the same notes. -/
theorem untimed_eq_iff {m n : Machine} :
    m.untimed = n.untimed ↔
      m.core = n.core ∧ m.keypad = n.keypad ∧ m.lastOp = n.lastOp ∧
        m.haltReason = n.haltReason ∧ m.haltWord = n.haltWord := by
  constructor
  · intro h
    have hcore : m.untimed.core = n.untimed.core := congrArg core h
    have hkeys : m.untimed.keypad = n.untimed.keypad := congrArg keypad h
    have hop : m.untimed.lastOp = n.untimed.lastOp := congrArg lastOp h
    have hreason : m.untimed.haltReason = n.untimed.haltReason := congrArg haltReason h
    have hword : m.untimed.haltWord = n.untimed.haltWord := congrArg haltWord h
    exact ⟨hcore, hkeys, hop, hreason, hword⟩
  · rintro ⟨hcore, hkeys, hop, hreason, hword⟩
    have hdressed (m : Machine) : m.untimed =
        { m.core with
          keypad := m.keypad
          lastOp := m.lastOp
          haltReason := m.haltReason
          haltWord := m.haltWord } := rfl
    rw [hdressed m, hdressed n, hcore, hkeys, hop, hreason, hword]

/-- Results that agree up to `f` are the same refusal, or machines that agree up to
`f`. -/
theorem cases_of_map_eq {f : Machine → Machine} {r r' : Except Stop Machine}
    (h : r.map f = r'.map f) :
    (∃ stop, r = .error stop ∧ r' = .error stop) ∨
      ∃ after after', r = .ok after ∧ r' = .ok after' ∧ f after = f after' := by
  cases r with
  | error stop =>
      cases r' with
      | error stop' =>
          cases h
          exact .inl ⟨stop, rfl, rfl⟩
      | ok after' => cases h
  | ok after =>
      cases r' with
      | error stop' => cases h
      | ok after' => exact .inr ⟨after, after', rfl, rfl, Except.ok.inj h⟩

/-- An instruction that does not copy the delay timer does the same to machines that
differ in their timers and the mark of the screen. -/
theorem perform_untimed {m n : Machine} {i : Instruction} (h : m.untimed = n.untimed)
    (hdelay : i.opcode ≠ .getDelay) :
    (m.perform i).map untimed = (n.perform i).map untimed := by
  obtain ⟨hcore, hkeys, hop, hreason, hword⟩ := untimed_eq_iff.1 h
  have hcongr := perform_congr (i := i) hcore (fun hget => absurd hget hdelay) fun _ => hkeys
  rcases cases_of_map_eq hcongr with ⟨stop, hm, hn⟩ | ⟨after, after', hm, hn, hcore_after⟩
  · rw [hm, hn]
  · have hk := kept_of_perform hm
    have hk' := kept_of_perform hn
    have hafter : after.untimed = after'.untimed := by
      refine untimed_eq_iff.2 ⟨hcore_after, ?_, ?_, ?_, ?_⟩
      · rw [hk.keypad, hk'.keypad, hkeys]
      · rw [hk.lastOp, hk'.lastOp, hop]
      · rw [hk.haltReason, hk'.haltReason, hreason]
      · rw [hk.haltWord, hk'.haltWord, hword]
    rw [hm, hn]
    exact congrArg Except.ok hafter

/-- A step has the same answer on machines that differ in their timers and the mark of
the screen, and leaves machines that do, unless it copies the delay timer. -/
theorem step_untimed {m n after : Machine} {goesOn : Bool} (h : m.untimed = n.untimed)
    (hstep : m.step = (.ok goesOn, after))
    (hdelay : goesOn = true → ∀ i ∈ after.lastOp, i.opcode ≠ .getDelay) :
    ∃ after', n.step = (.ok goesOn, after') ∧ after.untimed = after'.untimed := by
  have hfetch : n.fetch = m.fetch := by
    change n.untimed.fetch = m.untimed.fetch
    rw [h]
  have hfound (i : Instruction) : (m.found i).untimed = (n.found i).untimed :=
    congrArg (found · i) h
  have hstepped := hstep ▸ m.stepped_step
  unfold step
  rw [hfetch]
  cases hstepped with
  | endOfMemory hnone =>
      rw [hnone]
      exact ⟨_, rfl, congrArg (halt · .endOfMemory none) h⟩
  | @invalid word hword hnone =>
      simp only [hword, hnone]
      exact ⟨_, rfl, congrArg
        (fun m => { m with lastOp := none }.halt .invalidInstruction (some word)) h⟩
  | @carriedOut word i final hword hi hperform =>
      have hop : i.opcode ≠ .getDelay := hdelay rfl i (kept_of_perform hperform).lastOp
      have hsame := perform_untimed (hfound i) hop
      rcases cases_of_map_eq hsame with ⟨stop, hm, -⟩ | ⟨final, final', hm, hn, hfinal⟩
      · rw [hperform] at hm
        cases hm
      · obtain rfl := Except.ok.inj (hperform.symm.trans hm)
        simp only [hword, hi, hn]
        exact ⟨_, rfl, congrArg running hfinal⟩
  | @halted word i reason hword hi hperform =>
      have hop : i.opcode ≠ .getDelay := by
        rcases of_perform_halt hperform with ⟨hret, -⟩ | ⟨hcall, -⟩
        · simp [hret]
        · simp [hcall]
      have hsame := perform_untimed (hfound i) hop
      rcases cases_of_map_eq hsame with ⟨stop, hm, hn⟩ | ⟨final, final', hm, -⟩
      · obtain rfl := Except.error.inj (hperform.symm.trans hm)
        simp only [hword, hi, hn]
        exact ⟨_, rfl, congrArg (halt · reason (some word)) (hfound i)⟩
      · rw [hperform] at hm
        cases hm

end Machine

end Chip8
