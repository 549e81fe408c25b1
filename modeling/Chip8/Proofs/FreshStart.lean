import Chip8.Proofs.Congruence
import Chip8.Proofs.FontPlace
import Chip8.Proofs.Unseen

/-!
# Chip8.Proofs.FreshStart

A reset is a fresh start.  Machines are `Alike` if nothing tells them apart but how they come by
their random numbers, and if the numbers to come are the same.  Whatever an instruction makes of
one of them it makes of the other (`perform_alike`), and no other part of a call looks at these
numbers: being alike is a congruence (`alike_congruence`), which every sequence of calls keeps
(`serveAll_alike`).

Calls change neither how many calls may be under way nor where programs go, and where no
installation of the font was refused there is room for the font (`settled_serveAll`).  That is
all that a reset reads, so it leaves what building a new emulator gives.
-/

namespace Chip8

/-! ## alike machines -/

/-- The numbers to come are the same. -/
def Rng.SameAhead (r s : Rng) : Prop := ∀ k, r.draw (r.count + k) = s.draw (s.count + k)

theorem Rng.SameAhead.next {r s : Rng} (h : r.SameAhead s) : s.next = r.next := (h 0).symm

theorem Rng.SameAhead.advance {r s : Rng} (h : r.SameAhead s) :
    r.advance.SameAhead s.advance := by
  intro k
  have hlater := h (1 + k)
  rw [← Nat.add_assoc, ← Nat.add_assoc] at hlater
  exact hlater

namespace Machine

/-- The machine with another source of random numbers. -/
def withRng (m : Machine) (r : Rng) : Machine :=
  { m with processor := { m.processor with rng := r } }

/-- The machines are the same but for their sources of random numbers, and these agree on what
is to come. -/
def Alike (m n : Machine) : Prop := ∃ r, m.processor.rng.SameAhead r ∧ n = m.withRng r

/-- No instruction but one draws a random number. -/
theorem rng_of_perform {m after : Machine} {i : Instruction} (hop : i.opcode ≠ .random)
    (h : m.perform i = .ok after) : after.processor.rng = m.processor.rng := by
  have hout := outcome_of_perform h
  generalize i.opcode = op at hout hop
  cases hout with
  | random => exact absurd rfl hop
  | _ => rfl

theorem perform_random_alike {m n : Machine} (h : m.Alike n) (x : Register) (kk : UInt8) :
    SameUpTo Alike (m.perform ⟨.random, (x, kk)⟩) (n.perform ⟨.random, (x, kk)⟩) := by
  obtain ⟨r, hahead, rfl⟩ := h
  have hnext : (m.withRng r).processor.rng.next = m.processor.rng.next := hahead.next
  simp only [perform, Processor.random, hnext]
  cases byte? (andBits m.processor.rng.next kk.toNat) with
  | none => exact .error _
  | some b => exact .ok ⟨r.advance, hahead.advance, rfl⟩

/-- Whatever an instruction makes of a machine, it makes of one that is alike. -/
theorem perform_alike {m n : Machine} (h : m.Alike n) (i : Instruction) :
    SameUpTo Alike (m.perform i) (n.perform i) := by
  by_cases hop : i.opcode = .random
  · obtain ⟨op, o⟩ := i
    obtain rfl : op = .random := hop
    obtain ⟨x, kk⟩ := o
    exact perform_random_alike h x kk
  · obtain ⟨r, hahead, rfl⟩ := h
    have hspares : Revision.Spares { rng := fun _ => r } i.opcode :=
      ⟨fun _ => ⟨rfl, rfl⟩, fun _ => rfl, fun hrandom => absurd hrandom hop⟩
    have hsame : (m.withRng r).perform i = (m.perform i).map (·.withRng r) :=
      m.perform_revised hspares
    rw [hsame]
    cases hperform : m.perform i with
    | error stop => exact .error stop
    | ok after => exact .ok ⟨r, (rng_of_perform hop hperform).symm ▸ hahead, rfl⟩

/-- Installing the font does not depend on random numbers. -/
theorem installFont_withRng (location : Option Int) (m : Machine) (r : Rng) :
    (m.withRng r).installFont location =
      ((m.installFont location).1, (m.installFont location).2.withRng r) := by
  have hsame : (m.withRng r).fontLocation = m.fontLocation := rfl
  rw [installFont_eq, installFont_eq, hsame]
  by_cases hfits : FontFits (location.getD m.fontLocation)
  · simp only [if_pos hfits]
    rfl
  · simp only [if_neg hfits]
    rfl

/-- Neither does a reset. -/
theorem reset_withRng (m : Machine) (r : Rng) :
    (m.withRng r).reset = (m.reset.1, m.reset.2.withRng r) := by
  have hinstall := m.cleared.installFont_withRng none r
  have hcleared : (m.withRng r).cleared = m.cleared.withRng r := rfl
  rw [reset, reset, hcleared, hinstall]
  generalize m.cleared.installFont none = result
  obtain ⟨answer, after⟩ := result
  cases answer <;> rfl

theorem rng_installFont (location : Option Int) (m : Machine) :
    (m.installFont location).2.processor.rng = m.processor.rng := by
  rcases m.installFont_cases location with ⟨memory, h⟩ | ⟨cause, h⟩ <;> rw [h]

theorem rng_reset (m : Machine) : m.reset.2.processor.rng = m.processor.rng := by
  rw [m.processor_reset.1]
  rfl

/-- What does not look at the source of random numbers is the same for machines that are alike. -/
theorem Alike.same {α : Type} {f : Machine → α} (hf : ∀ m r, f (m.withRng r) = f m) {m n : Machine}
    (h : m.Alike n) : f m = f n := by
  obtain ⟨r, -, rfl⟩ := h
  rw [hf]

/-- What neither looks at the source of random numbers nor draws from it keeps machines alike. -/
theorem Alike.map {f : Machine → Machine} (hf : ∀ m r, f (m.withRng r) = (f m).withRng r)
    (hrng : ∀ m, (f m).processor.rng = m.processor.rng) {m n : Machine} (h : m.Alike n) :
    (f m).Alike (f n) := by
  obtain ⟨r, hahead, rfl⟩ := h
  rw [hf]
  exact ⟨r, (hrng m).symm ▸ hahead, rfl⟩

theorem alike_of_withRng {α : Type} {f : Machine → α × Machine}
    (hf : ∀ m r, f (m.withRng r) = ((f m).1, (f m).2.withRng r))
    (hrng : ∀ m, (f m).2.processor.rng = m.processor.rng) {m n : Machine} (h : m.Alike n) :
    (f m).1 = (f n).1 ∧ (f m).2.Alike (f n).2 := by
  constructor
  · exact h.same (f := fun m => (f m).1) fun m r => by rw [hf]
  · exact h.map (f := fun m => (f m).2) (fun m r => by rw [hf]) hrng

/-- What is alike stays alike, whatever is called. -/
theorem alike_congruence : Congruence id Alike where
  perform := perform_alike
  installFont h location :=
    alike_of_withRng (installFont_withRng location) (rng_installFont location) h
  reset h := alike_of_withRng reset_withRng rng_reset h
  memory h := h.same fun _ _ => rfl
  pc h := h.same (f := fun m => m.processor.pc) fun _ _ => rfl
  programStart h := h.same fun _ _ => rfl
  keypad h := h.same fun _ _ => rfl
  timers h := h.same
    (f := fun m => id (Answer.timers m.processor.tick.dt m.processor.tick.st)) fun _ _ => rfl
  withLastOp h lastOp := h.map (f := fun m => { m with lastOp }) (fun _ _ => rfl) fun _ => rfl
  withHalt h haltReason haltWord :=
    h.map (f := fun m => { m with haltReason, haltWord }) (fun _ _ => rfl) fun _ => rfl
  withProgram h bytes := h.map (f := (·.withProgram bytes)) (fun _ _ => rfl) fun _ => rfl
  withKeypad h keypad := h.map (f := fun m => { m with keypad }) (fun _ _ => rfl) fun _ => rfl
  tick h := h.map (f := (·.onProcessor Processor.tick)) (fun _ _ => rfl) fun _ => rfl

end Machine

namespace Emulator

/-- The machines of the emulators are alike; what their logs hold has no influence. -/
def Alike (e f : Emulator) : Prop := e.toMachine.Alike f.toMachine

/-- Any calls have the same answers on emulators that are alike, and leave them alike. -/
theorem serveAll_alike {e f : Emulator} (h : e.Alike f) (requests : List Request) :
    e.answers requests = f.answers requests ∧
      (e.serveAll requests).Alike (f.serveAll requests) := by
  obtain ⟨hanswers, hafter, -⟩ := Machine.alike_congruence.serveAll h requests
  exact ⟨by simpa using hanswers, hafter⟩

end Emulator

/-! ## what a reset reads -/

namespace Machine

/-- How many calls may be under way, where programs go, and that there is room for the font. -/
structure Settled (stackLimit programStart : Int) (m : Machine) : Prop where
  limit : m.processor.stack.limit = stackLimit
  start : m.programStart = programStart
  fits : FontFits m.fontLocation

variable {stackLimit programStart : Int}

theorem settled_step {m : Machine} (hm : m.Settled stackLimit programStart) :
    m.step.2.Settled stackLimit programStart := by
  have hstep := m.stepped_step
  generalize m.step = r at hstep ⊢
  cases hstep with
  | @carriedOut _ i after hword hi h =>
      have hkept := kept_of_perform (m := m.found i) h
      exact ⟨hkept.stackLimit.trans hm.limit, hkept.programStart.trans hm.start,
        hkept.fontLocation ▸ hm.fits⟩
  | endOfMemory | invalid | halted | faulted => exact ⟨hm.limit, hm.start, hm.fits⟩

theorem settled_of_operated {m after : Machine} (h : m.Operated after)
    (hm : m.Settled stackLimit programStart) : after.Settled stackLimit programStart := by
  induction h with
  | same | loaded | halted | ticked | keyMoved => exact ⟨hm.limit, hm.start, hm.fits⟩
  | stepped _ ih => exact settled_step ih
  | performed hperform =>
      have hkept := kept_of_perform hperform
      exact ⟨hkept.stackLimit.trans hm.limit, hkept.programStart.trans hm.start,
        hkept.fontLocation ▸ hm.fits⟩

@[simp] theorem programStart_withFont (m : Machine) (a : Int) :
    (m.withFont a).programStart = m.programStart := by rw [withFont]

theorem Settled.withFont {m : Machine} (hm : m.Settled stackLimit programStart) {a : Int}
    (h : FontFits a) : (m.withFont a).Settled stackLimit programStart := by
  constructor
  · exact hm.limit
  · rw [programStart_withFont]
    exact hm.start
  · exact h

theorem settled_installFont {m : Machine} (hm : m.Settled stackLimit programStart)
    {location : Option Int} (h : (m.installFont location).1 = .ok ()) :
    (m.installFont location).2.Settled stackLimit programStart := by
  have hinstall := m.installFont_eq location
  by_cases hfits : FontFits (location.getD m.fontLocation)
  · rw [hinstall.trans (if_pos hfits)]
    exact hm.withFont hfits
  · rw [hinstall.trans (if_neg hfits)] at h
    cases h

theorem Settled.quieted {m : Machine} (hm : m.Settled stackLimit programStart) :
    m.quieted.Settled stackLimit programStart := ⟨hm.limit, hm.start, hm.fits⟩

theorem settled_reset {m : Machine} (hm : m.Settled stackLimit programStart) :
    m.reset.2.Settled stackLimit programStart := by
  have hcleared : m.cleared.Settled stackLimit programStart := ⟨hm.limit, hm.start, hm.fits⟩
  rw [reset_eq, if_pos hm.fits]
  exact (hcleared.withFont hm.fits).quieted

end Machine

namespace Emulator

/-- No installation of the font is refused. -/
def FontNeverRefused (e : Emulator) (requests : List Request) : Prop :=
  ∀ location answer, (Request.installFont location, answer) ∈ requests.zip (e.answers requests) →
    answer = .ok .nothing

open Machine

variable {stackLimit programStart : Int}

theorem settled_serve {e : Emulator} (he : e.toMachine.Settled stackLimit programStart)
    {request : Request}
    (h : ∀ location, request = .installFont location → (e.serve request).1 = .ok .nothing) :
    (e.serve request).2.toMachine.Settled stackLimit programStart := by
  by_cases hinstall : ∃ location, request = .installFont location
  · obtain ⟨location, rfl⟩ := hinstall
    have hanswer : (e.toMachine.installFont location).1.map (fun _ => Answer.nothing) =
        .ok .nothing := h location rfl
    refine settled_installFont he ?_
    generalize (e.toMachine.installFont location).1 = answer at hanswer ⊢
    cases answer with
    | ok => rfl
    | error => cases hanswer
  · by_cases hreset : request = .reset
    · subst hreset
      exact settled_reset he
    · exact settled_of_operated (operated_serve (not_exists.1 hinstall) hreset) he

/-- Calls among which no installation of the font is refused leave all this as it is. -/
theorem settled_serveAll {e : Emulator} (he : e.toMachine.Settled stackLimit programStart)
    {requests : List Request} (h : e.FontNeverRefused requests) :
    (e.serveAll requests).toMachine.Settled stackLimit programStart := by
  induction requests generalizing e with
  | nil => exact he
  | cons request rest ih =>
      have hfirst : (e.serve request).2.toMachine.Settled stackLimit programStart :=
        settled_serve he fun location hrequest =>
          h location _ (hrequest ▸ List.mem_cons_self)
      exact ih hfirst fun location answer hmem =>
        h location answer (List.mem_cons_of_mem _ hmem)

theorem settled_create {stackLimit fontLocation programStart : Option Int} {rng : Rng} {log : Log}
    {e : Emulator}
    (h : Emulator.create stackLimit fontLocation programStart rng log = .ok e) :
    e.toMachine.Settled (stackLimit.getD defaultStackLimit)
      (programStart.getD defaultProgramStart) := by
  obtain ⟨hknown, hmeant, hwritten⟩ := fontKnown_create h
  have hfits : FontFits e.fontLocation := by
    rw [hmeant, ← hwritten]
    exact hknown.fits
  obtain ⟨memory, hmachine⟩ := toMachine_create h
  refine ⟨?_, ?_, hfits⟩ <;> rw [hmachine] <;> rfl

/-- Where there is room for its font, an emulator is built. -/
theorem create_of_fits {a : Int} (h : FontFits a) (stackLimit programStart : Option Int)
    (rng : Rng) (log : Log) :
    Emulator.create stackLimit (some a) programStart rng log =
      .ok ⟨(blank (stackLimit.getD defaultStackLimit) a
        (programStart.getD defaultProgramStart) rng).withFont a, log⟩ := by
  have hmachine := (create_eq stackLimit (some a) programStart rng).trans (if_pos h)
  rw [Emulator.create, hmachine]
  rfl

/-- Where there is room for the font, a reset leaves what building an emulator gives; only the
source of random numbers goes on where it is. -/
theorem reset_of_settled {e : Emulator} {stackLimit programStart : Option Int}
    (he : e.toMachine.Settled (stackLimit.getD defaultStackLimit)
      (programStart.getD defaultProgramStart)) (rng : Rng) (log : Log) :
    e.reset.1 = .ok () ∧ ∃ fresh,
      Emulator.create stackLimit (some e.fontLocation) programStart rng log = .ok fresh ∧
        fresh.processor.rng = rng ∧
        e.reset.2.toMachine = fresh.toMachine.withRng e.processor.rng := by
  have hcreated := create_of_fits he.fits stackLimit programStart rng log
  have hreset := e.toMachine.reset_eq.trans (if_pos he.fits)
  rw [← he.limit, ← he.start] at hcreated
  refine ⟨congrArg Prod.fst hreset, _, hcreated, rfl, ?_⟩
  change e.toMachine.reset.2 = _
  rw [hreset]
  rfl

/-- **A reset is a fresh start**: after any calls on a new emulator among which no installation
of the font was refused, a reset is answered, and it leaves the machine of an emulator that is
built with the same stack limit, the same place for programs and the font where it is now meant
to be; the source of random numbers alone goes on where it is.  So where the numbers to come are
the same, any later calls have the same answers on both. -/
theorem reset_is_fresh_start {stackLimit fontLocation programStart : Option Int} {rng : Rng}
    {log : Log} {e : Emulator}
    (hcreate : Emulator.create stackLimit fontLocation programStart rng log = .ok e)
    {requests : List Request} (hfont : e.FontNeverRefused requests) :
    let after := e.serveAll requests
    after.reset.1 = .ok () ∧ after.reset.2.processor.rng = after.processor.rng ∧
    ∀ (rng' : Rng) (log' : Log),
      ∃ fresh,
        Emulator.create stackLimit (some after.fontLocation) programStart rng' log' = .ok fresh ∧
        after.reset.2.toMachine = fresh.toMachine.withRng after.processor.rng ∧
        (rng'.SameAhead after.processor.rng → ∀ later : List Request,
          fresh.answers later = after.reset.2.answers later ∧
            (fresh.serveAll later).Alike (after.reset.2.serveAll later)) := by
  intro after
  have hafter := settled_serveAll (settled_create hcreate) hfont
  have hreset := reset_of_settled hafter
  refine ⟨(hreset rng log).1, after.toMachine.rng_reset, ?_⟩
  intro rng' log'
  obtain ⟨-, fresh, hfresh, rfl, hsame⟩ := hreset rng' log'
  refine ⟨fresh, hfresh, hsame, ?_⟩
  intro hahead later
  exact serveAll_alike ⟨after.processor.rng, hahead, hsame⟩ later

/-- The font is moved, a program draws a random number and draws a digit, a key is held and the
timers run before the reset. -/
theorem reset_is_fresh_start_moved :
    let requests : List Request :=
      [.installFont (some 0x100), .loadWords [0xC0FF, 0xF029, 0xD005, 0x2208], .run (some 9),
        .keyDown 5, .tick]
    ∃ e, Emulator.create none none none (Rng.cycle [7, 200]) .off = .ok e ∧
      e.FontNeverRefused requests ∧
      let after := e.serveAll requests
      after.reset.1 = .ok () ∧ after.reset.2.processor.rng = after.processor.rng ∧
      ∃ fresh,
        Emulator.create none (some 0x100) none after.processor.rng .off = .ok fresh ∧
        after.reset.2.toMachine = fresh.toMachine.withRng after.processor.rng ∧
        fresh.answers requests = after.reset.2.answers requests := by
  intro requests
  obtain ⟨e, hcreate⟩ : ∃ e, Emulator.create none none none (Rng.cycle [7, 200]) .off = .ok e :=
    ⟨_, rfl⟩
  have hfont : e.FontNeverRefused requests := by
    intro location answer hmem
    rcases List.mem_cons.1 hmem with hfirst | hrest
    · have hanswer : answer = (e.installFont (some 0x100)).1.map fun _ => .nothing :=
        congrArg Prod.snd hfirst
      rw [hanswer, installFont_of_fits (by decide)]
      rfl
    · simp [answers] at hrest
  have hmeant : (e.serveAll requests).fontLocation = 0x100 :=
    (font_serveAll (fontKnown_create hcreate).1 requests).2.1
  obtain ⟨hok, hrng, hfresh⟩ := reset_is_fresh_start hcreate hfont
  obtain ⟨fresh, hnew, hsame, hlater⟩ := hfresh (e.serveAll requests).processor.rng .off
  rw [hmeant] at hnew
  exact ⟨e, hcreate, hfont, hok, hrng, fresh, hnew, hsame, (hlater (fun _ => rfl) requests).1⟩

end Emulator

end Chip8
