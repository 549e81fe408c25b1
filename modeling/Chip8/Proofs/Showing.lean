import Chip8.Host
import Chip8.Proofs.Bounds

/-!
# Chip8.Proofs.Showing

What the renderer shows is never out of date without a mark that says so.  A screen that has
changed bears its mark (`Screen.ChangedFrom` says this of two screens): pixels are only turned
around and cleared, both of which set the mark, and the host takes the mark off only when it
hands the picture over.

Layered like the machine: `changedFrom_perform` for one instruction, `changedFrom_serve` for a
call of an emulator, `upToDate_after` for a call of a host and `renderer_never_stale` for every
sequence of them.  However a run of the host ends, it has shown the screen (`shown_run`).
-/

namespace Chip8

namespace Screen

variable {w h : Int}

/-! ## the mark of a screen -/

/-- Of two screens, the later one is marked if they are not the same. -/
def ChangedFrom (t s : Screen w h) : Prop := t = s ∨ t.dirty = true

theorem ChangedFrom.refl (s : Screen w h) : s.ChangedFrom s := .inl rfl

theorem ChangedFrom.trans {s t u : Screen w h} (htu : u.ChangedFrom t) (hst : t.ChangedFrom s) :
    u.ChangedFrom s := by
  rcases htu with rfl | hmarked
  · exact hst
  · exact .inr hmarked

theorem dirty_xorPixel {s t : Screen w h} {x y : Int} {lit : Bool}
    (hxor : s.xorPixel x y = .ok (lit, t)) : t.dirty = true := by
  unfold xorPixel at hxor
  cases hplace : locate w h x y with
  | error cause =>
      rw [hplace] at hxor
      cases hxor
  | ok k =>
      rw [hplace] at hxor
      cases hxor
      rfl

/-- Turning pixels around sets the mark, unless there are none to turn around. -/
theorem changedFrom_xorPixels {s t : Screen w h} {points : List (Int × Int)} {hit : Bool}
    (hxor : s.xorPixels points = .ok (hit, t)) : t.ChangedFrom s := by
  induction points generalizing s t hit with
  | nil =>
      cases hxor
      exact .refl s
  | cons p rest ih =>
      obtain ⟨x, y⟩ := p
      cases hfirst : s.xorPixel x y with
      | error cause =>
          rw [xorPixels, hfirst] at hxor
          cases hxor
      | ok r =>
          obtain ⟨lit, between⟩ := r
          rw [xorPixels, hfirst] at hxor
          change (between.xorPixels rest >>= fun r => pure (lit || r.1, r.2)) = _ at hxor
          cases hrest : between.xorPixels rest with
          | error cause =>
              rw [hrest] at hxor
              cases hxor
          | ok r =>
              rw [hrest] at hxor
              cases hxor
              exact (ih hrest).trans (.inr (dirty_xorPixel hfirst))

/-- Drawing sets the mark if it changes anything, also where it is refused half way. -/
theorem changedFrom_draw (s : Screen w h) (x y : Int) (rows : List Int) :
    (s.draw x y rows).2.ChangedFrom s := by
  unfold draw
  dsimp only
  cases hdraw : s.drawSprite x y (readRows rows).1 with
  | error cause => exact .refl s
  | ok r =>
      obtain ⟨hit, t⟩ := r
      have hchanged : t.ChangedFrom s := changedFrom_xorPixels hdraw
      cases (readRows rows).2 <;> exact hchanged

end Screen

namespace Machine

/-! ## instructions and steps -/

theorem changedFrom_perform_draw {m after : Machine} {x y : Register} {n : Nibble}
    (h : m.perform ⟨.draw, (x, y, n)⟩ = .ok after) : after.screen.ChangedFrom m.screen := by
  obtain ⟨hit, screen, hdraw⟩ := m.screen.drawSprite_total (by decide) (m.reg x).toNat
    (m.reg y).toNat (m.rowsAtIndex n)
  rw [perform_draw hdraw] at h
  cases h
  exact Screen.changedFrom_xorPixels hdraw

/-- An instruction that changes the screen sets its mark. -/
theorem changedFrom_perform {m after : Machine} {i : Instruction} (h : m.perform i = .ok after) :
    after.screen.ChangedFrom m.screen := by
  by_cases hdraw : i.opcode = .draw
  · obtain ⟨op, o⟩ := i
    obtain rfl : op = .draw := hdraw
    obtain ⟨x, y, n⟩ := o
    exact changedFrom_perform_draw h
  · have hout := outcome_of_perform h
    generalize i.opcode = op at hout hdraw
    cases hout
    case draw => exact absurd rfl hdraw
    case clear => exact .inr rfl
    all_goals exact .refl m.screen

theorem changedFrom_step (m : Machine) : m.step.2.screen.ChangedFrom m.screen := by
  have hstep := m.stepped_step
  generalize m.step = r at hstep ⊢
  cases hstep with
  | @carriedOut _ i after hword hi h =>
      have hafter : after.screen.ChangedFrom m.screen := changedFrom_perform (m := m.found i) h
      exact hafter
  | endOfMemory | invalid | halted | faulted => exact .refl m.screen

theorem changedFrom_of_operated {m after : Machine} (h : m.Operated after) :
    after.screen.ChangedFrom m.screen := by
  induction h with
  | same | loaded | halted | ticked | keyMoved => exact .refl m.screen
  | stepped _ ih => exact (changedFrom_step _).trans ih
  | performed hperform => exact changedFrom_perform hperform

/-- A reset clears the screen, or is refused before it comes to that. -/
theorem changedFrom_reset (m : Machine) : m.reset.2.screen.ChangedFrom m.screen := by
  unfold reset
  rcases m.cleared.installFont_cases none with ⟨memory, h⟩ | ⟨cause, h⟩
  · rw [h]
    exact .inr rfl
  · rw [h]
    exact .refl m.screen

end Machine

namespace Emulator

open Machine

/-! ## calls of an emulator -/

theorem changedFrom_emulator_step (e : Emulator) : e.step.2.screen.ChangedFrom e.screen := by
  rw [e.step_toMachine]
  exact e.toMachine.changedFrom_step

/-- A call that changes the screen sets its mark, whether or not it is refused. -/
theorem changedFrom_serve (e : Emulator) (request : Request) :
    (e.serve request).2.screen.ChangedFrom e.screen := by
  by_cases hinstall : ∃ location, request = .installFont location
  · obtain ⟨location, rfl⟩ := hinstall
    change (e.toMachine.installFont location).2.screen.ChangedFrom e.screen
    rcases e.toMachine.installFont_cases location with ⟨memory, h⟩ | ⟨cause, h⟩ <;> rw [h] <;>
      exact .refl e.screen
  · by_cases hreset : request = .reset
    · subst hreset
      exact e.toMachine.changedFrom_reset
    · exact changedFrom_of_operated (operated_serve (not_exists.1 hinstall) hreset)

theorem screen_moveKey (e : Emulator) (k : Key) (position : Bool) :
    (e.moveKey k position).screen = e.screen := by
  rw [toMachine_moveKey]

theorem screen_deliver (e : Emulator) (keymap : Keymap) (event : Event) :
    (event.deliver keymap e).screen = e.screen := by
  cases event with
  | quit | other => rfl
  | keyDown code =>
      rw [Event.deliver_keyDown]
      cases keymap.key? code with
      | none => rfl
      | some k => exact e.screen_moveKey k true
  | keyUp code =>
      by_cases hescape : code = Event.escape
      · rw [Event.deliver, if_pos hescape]
      · rw [Event.deliver_keyUp keymap e hescape]
        cases keymap.key? code with
        | none => rfl
        | some k => exact e.screen_moveKey k false

/-- Arriving at a call does not touch the screen. -/
theorem screen_of_atCall? {e arrived : Emulator} (h : e.atCall? = some arrived) :
    arrived.screen = e.screen := by
  simp only [atCall?, Option.bind_eq_bind, Option.bind_eq_some_iff] at h
  obtain ⟨word, -, i, -, hi⟩ := h
  split at hi
  · cases hi
    rfl
  · cases hi

/-- Events move keys and do not touch the screen. -/
theorem screen_process (e : Emulator) (inputs : Inputs) :
    (inputs.process e).2.2.screen = e.screen := by
  unfold Inputs.process
  split
  · rfl
  · change ((inputs.batches.headD []).foldl (Event.deliver inputs.keymap) e).screen = e.screen
    induction inputs.batches.headD [] generalizing e with
    | nil => rfl
    | cons event rest ih => exact (ih _).trans (e.screen_deliver inputs.keymap event)

end Emulator

/-! ## calls of a host -/

/-- A call that can be made on a host: its own ones, sprites drawn from outside, and the calls of
its emulator. -/
inductive HostCall
  | frame
  | refresh
  | run (clock : Clock)
  | draw (x y : Int) (rows : List Int)
  | request (request : Request)

namespace Host

/-- The host after a call, whether or not the call is refused. -/
def after (h : Host) : HostCall → Host
  | .frame => h.frame.2
  | .refresh => h.refresh
  | .run clock => (h.run clock).2.1
  | .draw x y rows =>
    { h with emulator := { h.emulator with screen := (h.emulator.screen.draw x y rows).2 } }
  | .request request => { h with emulator := (h.emulator.serve request).2 }

/-- The host after a sequence of calls. -/
def afterAll (h : Host) (calls : List HostCall) : Host := calls.foldl after h

/-- The picture that the renderer was given last is the one on the screen, which has no mark. -/
structure Shown (h : Host) : Prop where
  unmarked : h.emulator.screen.dirty = false
  picture : h.renderer.lastFrame = some h.emulator.screen.rows

/-- The screen has a mark, or the picture that the renderer was given last is the one on it. -/
def UpToDate (h : Host) : Prop :=
  h.emulator.screen.dirty = true ∨ h.renderer.lastFrame = some h.emulator.screen.rows

/-- A host stays up to date if its screen is marked where it changes. -/
theorem UpToDate.keep {h h' : Host} (hh : h.UpToDate) (hrenderer : h'.renderer = h.renderer)
    (hscreen : h'.emulator.screen.ChangedFrom h.emulator.screen) : h'.UpToDate := by
  rcases hscreen with hsame | hmarked
  · unfold UpToDate
    rw [hrenderer, hsame]
    exact hh
  · exact .inl hmarked

/-- Showing the screen hands over its picture if it has a mark, and takes the mark off. -/
theorem shown_refresh {h : Host} (hh : h.UpToDate) : h.refresh.Shown := by
  unfold refresh
  split
  · exact ⟨rfl, rfl⟩
  · rename_i hunmarked
    exact ⟨Bool.not_eq_true _ ▸ hunmarked, hh.resolve_left hunmarked⟩

theorem Shown.upToDate {h : Host} (hh : h.Shown) : h.UpToDate := .inr hh.picture

theorem upToDate_frame {h : Host} (hh : h.UpToDate) : h.frame.2.UpToDate := by
  have hscreen := h.emulator.screen_process h.inputs
  unfold frame
  generalize h.inputs.process h.emulator = r at hscreen ⊢
  obtain ⟨quit, inputs, emulator⟩ := r
  have hprocessed : UpToDate { h with inputs, emulator } := hh.keep rfl (.inl hscreen)
  cases quit with
  | true => exact hprocessed
  | false =>
      have hticked : UpToDate { h with inputs, emulator := emulator.tick } :=
        hprocessed.keep rfl (.refl _)
      have hshown := (shown_refresh hticked).upToDate
      exact hshown

/-! ## runs of a host -/

theorem changedFrom_host_step (h : Host) : h.step.2.screen.ChangedFrom h.emulator.screen := by
  unfold step
  split
  · exact h.emulator.changedFrom_emulator_step
  · split
    · exact h.emulator.changedFrom_emulator_step
    · rename_i arrived harrived
      exact .inl (Emulator.screen_of_atCall? harrived)

theorem upToDate_stepAt {h : Host} (hh : h.UpToDate) (t : Time) : (h.stepAt t).2.UpToDate := by
  have hscreen := h.changedFrom_host_step
  unfold stepAt
  generalize h.step = r at hscreen ⊢
  obtain ⟨answer, emulator⟩ := r
  match answer with
  | .ok true | .ok false | .error _ => exact hh.keep rfl hscreen

theorem upToDate_turn {h : Host} (hh : h.UpToDate) (t : Time) : (h.turn t).2.UpToDate := by
  unfold turn
  split
  · have hframe := upToDate_frame hh
    generalize h.frame = r at hframe ⊢
    obtain ⟨quit, after⟩ := r
    cases quit with
    | true => exact hframe
    | false =>
        exact upToDate_stepAt (h := { after with nextFrame := Binary64.add t frameInterval })
          hframe t
  · exact upToDate_stepAt hh t

/-- A reading of the clock leaves the host up to date. -/
theorem upToDate_advance {h : Host} (hh : h.UpToDate) (pace : Pace) (t : Time) :
    (h.advance pace t).2.UpToDate := by
  cases pace with
  | ready => exact upToDate_turn hh t
  | waiting due =>
      unfold advance
      simp only
      split <;> exact hh

/-- What every reading keeps, every run keeps. -/
theorem runOn_keeps {P : Host → Prop}
    (hadvance : ∀ h pace t, P h → P (h.advance pace t).2) {h : Host} (hh : P h) (pace : Pace)
    (clock : Clock) : P (h.runOn pace clock).2.1 := by
  induction h, pace, clock using Host.runOn.induct with
  | case1 h pace clock hread =>
      rw [runOn, hread]
      exact hh
  | case2 h pace clock t rest hread pace' between hgoing ih =>
      have hbetween := hadvance h pace t hh
      rw [hgoing] at hbetween
      rw [runOn, hread]
      simp only [hgoing]
      exact ih hbetween
  | case3 h pace clock t rest hread r between hended =>
      have hbetween := hadvance h pace t hh
      rw [hended] at hbetween
      rw [runOn, hread]
      simp only [hended]
      exact hbetween

/-- Any number of readings leaves the host up to date. -/
theorem upToDate_runOn {h : Host} (hh : h.UpToDate) (pace : Pace) (clock : Clock) :
    (h.runOn pace clock).2.1.UpToDate :=
  runOn_keeps (P := UpToDate)
    (fun _ pace t hbetween => upToDate_advance hbetween pace t) hh pace clock

/-- However a run ends, the picture on the screen has been shown. -/
theorem shown_run {h : Host} (hh : h.UpToDate) (clock : Clock) : (h.run clock).2.1.Shown :=
  shown_refresh (upToDate_runOn (h := h.start) hh .ready clock)

/-! ## sequences of calls -/

theorem upToDate_after {h : Host} (hh : h.UpToDate) (call : HostCall) :
    (h.after call).UpToDate := by
  cases call with
  | frame => exact upToDate_frame hh
  | refresh => exact (shown_refresh hh).upToDate
  | run clock => exact (shown_run hh clock).upToDate
  | draw x y rows => exact hh.keep rfl (h.emulator.screen.changedFrom_draw x y rows)
  | request request => exact hh.keep rfl (h.emulator.changedFrom_serve request)

theorem upToDate_afterAll {h : Host} (hh : h.UpToDate) (calls : List HostCall) :
    (h.afterAll calls).UpToDate := by
  induction calls generalizing h with
  | nil => exact hh
  | cons call rest ih => exact ih (upToDate_after hh call)

/-- The screen of a new emulator has a mark: it has not been shown yet. -/
theorem dirty_create {stackLimit fontLocation programStart : Option Int} {rng : Rng} {log : Log}
    {e : Emulator} (h : Emulator.create stackLimit fontLocation programStart rng log = .ok e) :
    e.screen.dirty = true := by
  obtain ⟨memory, hmachine⟩ := Emulator.toMachine_create h
  rw [hmachine]
  rfl

theorem emulator_create {e : Emulator} {renderer : Renderer} {inputs : Inputs}
    {speed : Option Int} {h : Host} (hhost : Host.create e renderer inputs speed = .ok h) :
    h.emulator = e := by
  unfold Host.create at hhost
  cases hspeed : coreInterval (speed.getD defaultClockSpeed) with
  | error cause =>
      rw [hspeed] at hhost
      cases hhost
  | ok interval =>
      rw [hspeed] at hhost
      cases hhost
      rfl

/-- **The renderer is never stale**: whatever calls are made on a new host with a new emulator,
with whatever renderer, events and clocks and whether or not they are refused, the screen has a
mark or the picture on it is the one that the renderer was given last; and however a run ends
after that, the screen has no mark and its picture is the one that the renderer was given
last. -/
theorem renderer_never_stale {stackLimit fontLocation programStart speed : Option Int} {rng : Rng}
    {log : Log} {e : Emulator} {renderer : Renderer} {inputs : Inputs} {h : Host}
    (hemulator : Emulator.create stackLimit fontLocation programStart rng log = .ok e)
    (hhost : Host.create e renderer inputs speed = .ok h) (calls : List HostCall) :
    (h.afterAll calls).UpToDate ∧
      ∀ (clock rest : Clock) (ending : Except HostError Ending) (last : Host),
        (h.afterAll calls).run clock = (ending, last, rest) → last.Shown := by
  have hnew : h.UpToDate := by
    refine .inl ?_
    rw [emulator_create hhost]
    exact dirty_create hemulator
  have hcurrent := upToDate_afterAll hnew calls
  refine ⟨hcurrent, ?_⟩
  intro clock rest ending last hrun
  have hshown := shown_run hcurrent clock
  rw [hrun] at hshown
  exact hshown

/-- A new host, whose user presses a key and asks to quit. -/
def quitting : Host :=
  { emulator :=
      { toMachine :=
          { Machine.blank 16 0 0x200 (Rng.cycle []) with
            memory := ⟨Memory.overwrite (Memory.blank 0x1000).bytes 0 systemFont, 0⟩ }
        log := .off }
    renderer := Renderer.headless none
    inputs :=
      { keymap := ⟨(List.range 16).map fun (k : Nat) => (0x30 + k : Int), by decide, by decide⟩
        headless := false
        batches := [[.keyDown 0x33, .quit]] }
    interval := none
    nextFrame := 0
    frames := 0
    steps := 0 }

/-- A sprite that is refused half way and a reset that is refused because the font has no room,
before a run that the user quits. -/
theorem renderer_never_stale_quitting :
    let calls : List HostCall :=
      [.draw 62 31 [0xFF, 256], .request (.installFont (some 5000)), .request .reset]
    let clock : Clock := { reading := fun k => (k : Rat), limit := 2 }
    Emulator.create none none none (Rng.cycle []) .off = .ok quitting.emulator ∧
      Host.create quitting.emulator quitting.renderer quitting.inputs (some 0) = .ok quitting ∧
      (quitting.afterAll calls).UpToDate ∧
      ∃ last rest, (quitting.afterAll calls).run clock = (.ok none, last, rest) ∧
        last.Shown := by
  intro calls clock
  have hemulator :
      Emulator.create none none none (Rng.cycle []) .off = .ok quitting.emulator := rfl
  have hhost :
      Host.create quitting.emulator quitting.renderer quitting.inputs (some 0) = .ok quitting :=
    rfl
  obtain ⟨hcurrent, hends⟩ := renderer_never_stale hemulator hhost calls
  have hended : ((quitting.afterAll calls).run clock).1.toOption = some none := by
    decide +kernel
  cases hrun : (quitting.afterAll calls).run clock with
  | mk r tail =>
      obtain ⟨last, rest⟩ := tail
      rw [hrun] at hended
      cases r with
      | error cause => cases hended
      | ok ending =>
          obtain rfl : ending = none := Option.some.inj hended
          exact ⟨hemulator, hhost, hcurrent, last, rest, rfl, hends clock rest _ last hrun⟩

end Host

end Chip8
