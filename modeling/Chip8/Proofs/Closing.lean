import Chip8.Proofs.Showing
import Chip8.Startup

/-!
# Chip8.Proofs.Closing

Whether a window that was opened is closed again.  A run of the host hands pictures to the
renderer and does nothing else to it (`renderer_run`), and once it has ended, however it did, the
window is closed by the last call that is made.  But the run is only reached if the host could be
built, and that takes a keymap and a clock speed, which are looked at after the window was opened.

`started_host` says how far a start gets, and `window_closed_iff` which settings are needed for
the window to be closed.
-/

namespace Chip8

/-! ## calls to the window system -/

/-- The window is closed once, by the last call. -/
def Closed (calls : Array WindowCall) : Prop :=
  calls.count .quit = 1 ∧ calls.back? = some .quit

instance (calls : Array WindowCall) : Decidable (Closed calls) :=
  inferInstanceAs (Decidable (_ ∧ _))

theorem closed_push {calls : Array WindowCall} (h : .quit ∉ calls) :
    Closed (calls.push .quit) := by
  constructor
  · rw [Array.count_push_self, Array.count_eq_zero.2 h]
  · exact Array.back?_push

theorem not_closed {calls : Array WindowCall} (h : .quit ∉ calls) : ¬Closed calls := by
  rintro ⟨hcount, -⟩
  rw [Array.count_eq_zero.2 h] at hcount
  cases hcount

theorem quit_not_mem_opened (width : Int) : .quit ∉ (Window.opened width).calls := by
  simp [Window.opened]

namespace Renderer

/-- There is a window, and it has not been closed. -/
def Open (r : Renderer) : Prop := ∃ w, r.window = some w ∧ .quit ∉ w.calls

theorem open_resize {r : Renderer} (h : r.Open) (width height : Int) :
    (r.resize width height).Open := by
  obtain ⟨w, hw, hquit⟩ := h
  exact ⟨w.prepare width height, by rw [resize, hw, Option.map_some], hquit⟩

/-- Showing a picture prepares the window if need be, and paints it. -/
theorem open_present {r : Renderer} (h : r.Open) (p : Picture) : (r.present p).Open := by
  obtain ⟨old, hold, -⟩ := id h
  simp only [present, hold]
  generalize pictureSize p = size
  obtain ⟨width, height⟩ := size
  have hprepared : (if (width, height) = (r.width, r.height) then r
      else r.resize width height).Open := by
    split
    · exact h
    · exact open_resize h width height
  dsimp only
  generalize (if (width, height) = (r.width, r.height) then r else r.resize width height) =
    prepared at hprepared ⊢
  obtain ⟨w, hw, hquit⟩ := hprepared
  refine ⟨_, congrArg (Option.map _) hw, ?_⟩
  split
  · exact hquit
  · simp [Window.present, Window.call, Window.paint, hquit]

theorem open_drawFrame {r : Renderer} (h : r.Open) (p : Picture) : (r.drawFrame p).Open :=
  open_present h p

theorem headless_drawFrame {r : Renderer} (h : r.window = none) (p : Picture) :
    (r.drawFrame p).window = none := by
  simp only [drawFrame, present, h]

theorem calls_of_headless {r : Renderer} (h : r.window = none) : r.calls = #[] := by
  rw [calls, h]

theorem closed_shutdown {r : Renderer} (h : r.Open) : Closed r.shutdown.calls := by
  obtain ⟨w, hw, hquit⟩ := h
  have hcalls : r.shutdown.calls = w.calls.push .quit := by
    simp [shutdown, calls, hw, Window.call]
  rw [hcalls]
  exact closed_push hquit

end Renderer

namespace Host

/-! ## what a run does to the renderer -/

section Keeps

variable {P : Renderer → Prop} (hdraw : ∀ r p, P r → P (r.drawFrame p)) {h : Host}
include hdraw

theorem renderer_refresh (hh : P h.renderer) : P h.refresh.renderer := by
  unfold refresh
  split
  · exact hdraw _ _ hh
  · exact hh

theorem renderer_frame (hh : P h.renderer) : P h.frame.2.renderer := by
  unfold frame
  generalize h.inputs.process h.emulator = r
  obtain ⟨quit, inputs, emulator⟩ := r
  cases quit with
  | true => exact hh
  | false =>
      exact renderer_refresh hdraw (h := { h with inputs, emulator := emulator.tick }) hh

omit hdraw in
theorem renderer_stepAt (t : Time) : (h.stepAt t).2.renderer = h.renderer := by
  unfold stepAt
  generalize h.step = r
  obtain ⟨answer, emulator⟩ := r
  match answer with
  | .ok true | .ok false | .error _ => rfl

theorem renderer_turn (hh : P h.renderer) (t : Time) : P (h.turn t).2.renderer := by
  unfold turn
  split
  · have hframe := renderer_frame hdraw hh
    generalize h.frame = r at hframe ⊢
    obtain ⟨quit, after⟩ := r
    cases quit with
    | true => exact hframe
    | false =>
        dsimp only
        rw [renderer_stepAt]
        exact hframe
  · rw [renderer_stepAt]
    exact hh

theorem renderer_advance (hh : P h.renderer) (pace : Pace) (t : Time) :
    P (h.advance pace t).2.renderer := by
  cases pace with
  | ready => exact renderer_turn hdraw hh t
  | waiting due =>
      unfold advance
      dsimp only
      split <;> exact hh

/-- What every picture that is drawn keeps of a renderer, a run keeps. -/
theorem renderer_run (hh : P h.renderer) (clock : Clock) : P (h.run clock).2.1.renderer := by
  have hlast : P (h.start.runOn .ready clock).2.1.renderer :=
    runOn_keeps (P := fun h => P h.renderer) (h := h.start)
      (fun _ pace t hbetween => renderer_advance hdraw hbetween pace t) hh .ready clock
  exact renderer_refresh hdraw hlast

end Keeps

end Host

/-! ## what the settings ask for -/

/-- An entry of the table, if it is there. -/
def Settings.entry (name : String) (s : Option Setting) : Except StartupError Setting :=
  s.elim (.error (.missing name)) .ok

/-- What the host is built from besides an emulator and a renderer: the keymap, and the time from
one instruction to the next. -/
def Settings.keysAndInterval (s : Settings) : Except StartupError (Keymap × Option Time) := do
  let keymap ← (← entry "keymap" s.keymap).keymapOrUsual
  let speed ← (← entry "clock_speed" s.clockSpeed).numberFor "<="
  let interval ← (coreInterval (speed.getD defaultClockSpeed)).mapError .speed
  return (keymap, interval)

/-- The renderer has no window, or has just opened it. -/
def Renderer.New (r : Renderer) : Prop :=
  r.window = none ∨ ∃ width, Window.leastWidth ≤ width ∧ r.window = some (Window.opened width)

theorem Renderer.open_of_opened {r : Renderer} {width : Int}
    (h : r.window = some (Window.opened width)) : r.Open :=
  ⟨_, h, quit_not_mem_opened width⟩

namespace Starting

/-! ## how far a start gets -/

/-- The trail that is left in any case. -/
def trailOf {α : Type} : EStateM.Result StartupError Trail α → Trail
  | .ok _ t | .error _ t => t

/-- No call is made to the window system. -/
def Quiet {α : Type} (x : Starting α) : Prop := ∀ t, (trailOf (x.run t)).calls = t.calls

theorem quiet_pure {α : Type} (a : α) : Quiet (pure a) := fun _ => rfl

theorem quiet_lift {ε α : Type} (wrong : ε → StartupError) (r : Except ε α) :
    Quiet (lift wrong r) := by
  cases r <;> exact fun _ => rfl

theorem quiet_required (name : String) (s : Option Setting) : Quiet (required name s) := by
  cases s <;> exact fun _ => rfl

theorem quiet_log (log : Trail → Log) : Quiet (modify fun t => { t with log := log t }) :=
  fun _ => rfl

theorem quiet_bind {α β : Type} {x : Starting α} {f : α → Starting β} (hx : Quiet x)
    (hf : ∀ a, Quiet (f a)) : Quiet (x >>= f) := by
  intro t
  have hfirst := hx t
  change (trailOf (EStateM.bind x f t)).calls = t.calls
  change (trailOf (x t)).calls = t.calls at hfirst
  unfold EStateM.bind
  generalize x t = r at hfirst ⊢
  cases r with
  | ok a between => exact (hf a between).trans hfirst
  | error e between => exact hfirst

theorem quiet_loaded (s : Settings) (stackDepth : Option Int) (around : Surroundings) :
    Quiet (loaded s stackDepth around) := by
  unfold loaded
  refine quiet_bind (fun _ => rfl) fun t => ?_
  refine quiet_bind (quiet_lift _ _) fun emulator => ?_
  refine quiet_bind (quiet_required _ _) fun filename => ?_
  refine quiet_bind (quiet_lift _ _) fun name => ?_
  refine quiet_bind (quiet_lift _ _) fun program => ?_
  refine quiet_bind (quiet_lift _ _) fun emulator => ?_
  exact quiet_bind (quiet_log _) fun _ => quiet_pure emulator

/-- How far a start gets: not to a renderer, or to a new one and no further because the host could
not be built, or to a host. -/
inductive Started (s : Settings) : EStateM.Result StartupError Trail Host → Prop
  | unopened {e : StartupError} {t : Trail} (h : t.calls = #[]) : Started s (.error e t)
  | unbuilt {e : StartupError} {t : Trail} {renderer : Renderer} (hnew : renderer.New)
      (hcalls : t.calls = renderer.calls) (h : s.keysAndInterval = .error e) :
      Started s (.error e t)
  | built {host : Host} {t : Trail} {keymap : Keymap} {interval : Option Time}
      (hnew : host.renderer.New) (h : s.keysAndInterval = .ok (keymap, interval)) :
      Started s (.ok host t)

theorem started_bind {α : Type} {s : Settings} {x : Starting α} {f : α → Starting Host}
    (hx : Quiet x) (hf : ∀ a t, t.calls = #[] → Started s ((f a).run t)) {t : Trail}
    (ht : t.calls = #[]) : Started s ((x >>= f).run t) := by
  have hfirst := (hx t).trans ht
  change Started s (EStateM.bind x f t)
  change (trailOf (x t)).calls = #[] at hfirst
  unfold EStateM.bind
  generalize x t = r at hfirst ⊢
  cases r with
  | ok a between => exact hf a between hfirst
  | error e between => exact .unopened hfirst

section Entries

variable {ε α β : Type}

@[simp] theorem except_ok_bind (a : α) (f : α → Except ε β) : (Except.ok a >>= f) = f a := rfl

@[simp] theorem required_some_bind (name : String) (entry : Setting) (f : Setting → Starting β) :
    (required name (some entry) >>= f) = f entry := rfl

@[simp] theorem lift_ok_bind (wrong : ε → StartupError) (a : α) (f : α → Starting β) :
    (lift wrong (.ok a) >>= f) = f a := rfl

end Entries

theorem windowed_cases (scale : Option Int) :
    (∃ e, Renderer.windowed scale = .error e) ∨
      ∃ renderer, Renderer.windowed scale = .ok renderer ∧ renderer.New := by
  unfold Renderer.windowed
  dsimp only
  split
  · exact .inl ⟨_, rfl⟩
  · rename_i hwide
    exact .inr ⟨_, rfl, .inr ⟨_, Int.not_lt.1 hwide, rfl⟩⟩

/-- A renderer that is opened leaves its calls on the trail; one that is refused makes none. -/
theorem opened_cases (s : Settings) (window : Bool) (t : Trail) :
    (∃ e, opened s window t = .error e t) ∨
      ∃ renderer, opened s window t = .ok renderer { t with calls := renderer.calls } ∧
        renderer.New := by
  unfold opened
  cases s.scale with
  | none => exact .inl ⟨.missing "scale", rfl⟩
  | some scale =>
      cases window with
      | false => exact .inr ⟨Renderer.headless scale.number?, rfl, .inl rfl⟩
      | true =>
          simp only [required_some_bind, if_true]
          cases scale.numberFor "<" with
          | error e => exact .inl ⟨e, rfl⟩
          | ok width =>
              rcases windowed_cases width with ⟨e, hrefused⟩ | ⟨renderer, hwindowed, hnew⟩
              · simp only [lift_ok_bind, hrefused]
                exact .inl ⟨.window e, rfl⟩
              · simp only [lift_ok_bind, hwindowed]
                exact .inr ⟨renderer, rfl, hnew⟩

/-- Once there is a renderer, the host is built if the keymap and the clock speed can be made
out. -/
theorem run_of_renderer (s : Settings) (emulator : Emulator) (renderer : Renderer)
    (headless : Bool) (batches : List (List Event)) (limitKind : Option String) (t : Trail) :
    (do
      let keymap ← lift id (← required "keymap" s.keymap).keymapOrUsual
      let inputs : Inputs := { keymap, headless, batches }
      let speed ← lift id ((← required "clock_speed" s.clockSpeed).numberFor "<=")
      let host ← lift .speed (Host.create emulator renderer inputs speed)
      return { host with limitKind } : Starting Host) t =
      match s.keysAndInterval with
      | .error e => .error e t
      | .ok (keymap, interval) =>
        .ok { emulator, renderer, inputs := { keymap, headless, batches }, interval,
              nextFrame := 0, frames := 0, steps := 0, limitKind } t := by
  unfold Settings.keysAndInterval Host.create
  cases s.keymap with
  | none => rfl
  | some entry =>
      simp only [required_some_bind, Settings.entry, Option.elim_some, except_ok_bind]
      cases entry.keymapOrUsual with
      | error e => rfl
      | ok keymap =>
          simp only [lift_ok_bind, except_ok_bind]
          cases s.clockSpeed with
          | none => rfl
          | some entry =>
              simp only [required_some_bind, Option.elim_some, except_ok_bind]
              cases entry.numberFor "<=" with
              | error e => rfl
              | ok speed =>
                  simp only [lift_ok_bind, except_ok_bind]
                  cases coreInterval (speed.getD defaultClockSpeed) <;> rfl

/-- A start gets as far as the settings allow. -/
theorem started_host (s : Settings) (around : Surroundings) (log : Log) :
    Started s ((Starting.host s around).run { log }) := by
  unfold Starting.host
  -- everything before the renderer is quiet, whether or not it succeeds
  refine started_bind (quiet_log _) (fun _ t ht => ?_) rfl
  refine started_bind (quiet_required _ _) (fun entry t ht => ?_) ht
  refine started_bind (quiet_lift _ _) (fun window t ht => ?_) ht
  refine started_bind (quiet_required _ _) (fun stackDepth t ht => ?_) ht
  refine started_bind (quiet_loaded _ _ _) (fun emulator t ht => ?_) ht
  -- from here on the window may be open, and what is left can still go wrong
  change Started s (EStateM.bind (opened s window) _ t)
  unfold EStateM.bind
  rcases opened_cases s window t with ⟨e, hrefused⟩ | ⟨renderer, hopened, hnew⟩
  · rw [hrefused]
    exact .unopened ht
  · rw [hopened]
    dsimp only
    rw [run_of_renderer]
    cases hparts : s.keysAndInterval with
    | error e => exact .unbuilt hnew rfl hparts
    | ok parts => exact .built hnew hparts

end Starting

/-! ## how a program ends -/

theorem headless_run {h : Host} (hheadless : h.renderer.window = none) (clock : Clock) :
    (h.run clock).2.1.shutdown.renderer.calls = #[] := by
  have hlast : (h.run clock).2.1.renderer.window = none :=
    Host.renderer_run (P := fun r => r.window = none)
      (fun _ p h => Renderer.headless_drawFrame h p) hheadless clock
  refine Renderer.calls_of_headless ?_
  rw [Host.shutdown, Renderer.shutdown, hlast]
  rfl

theorem closed_run {h : Host} (hopen : h.renderer.Open) (clock : Clock) :
    Closed (h.run clock).2.1.shutdown.renderer.calls := by
  have hlast : (h.run clock).2.1.renderer.Open :=
    Host.renderer_run (P := Renderer.Open) (fun _ p h => Renderer.open_drawFrame h p) hopen clock
  exact Renderer.closed_shutdown hlast

/-- **A window is closed if the host is built**: where a program gets as far as opening a window,
whatever the settings and the surroundings are, the last call and no other closes it exactly if
the keymap and the clock speed can be made out.  If they cannot, the program ends with the error
that they lead to, and the calls that opened the window are all that were made. -/
theorem window_closed_iff (s : Settings) (around : Surroundings) (log : Log)
    (hopened : .initialise ∈ (launch s around log).trail.calls) :
    let report := launch s around log
    (Closed report.trail.calls ↔ ∃ keymap interval, s.keysAndInterval = .ok (keymap, interval)) ∧
    ∀ e, s.keysAndInterval = .error e → report.result = .error e ∧
      ∃ width, 64 ≤ width ∧ report.trail.calls =
        #[.initialise, .caption applicationName, .mode width (width / 2)] := by
  have hstarted := Starting.started_host s around log
  unfold launch at hopened ⊢
  generalize (Starting.host s around).run { log } = r at hstarted hopened ⊢
  have hnone : .initialise ∉ (#[] : Array WindowCall) := Array.not_mem_empty _
  cases hstarted with
  | unopened hcalls =>
      rw [hcalls] at hopened
      exact absurd hopened hnone
  | @unbuilt e t renderer hnew hcalls hparts =>
      rcases hnew with hheadless | ⟨width, hwide, hwindow⟩
      · rw [hcalls, Renderer.calls_of_headless hheadless] at hopened
        exact absurd hopened hnone
      · have hopening : t.calls = (Window.opened width).calls := by
          rw [hcalls, Renderer.calls, hwindow]
        dsimp only
        rw [hopening, hparts]
        constructor
        · constructor
          · exact fun hclosed => absurd hclosed (not_closed (quit_not_mem_opened width))
          · rintro ⟨_, _, hok⟩
            cases hok
        · intro e' he
          cases he
          exact ⟨rfl, width, hwide, rfl⟩
  | @built host t keymap interval hnew hparts =>
      rcases hnew with hheadless | ⟨width, -, hwindow⟩
      · have hcalls := headless_run hheadless around.clock
        dsimp only at hopened
        rw [hcalls] at hopened
        exact absurd hopened hnone
      · have hclosed := closed_run (Renderer.open_of_opened hwindow) around.clock
        refine ⟨⟨fun _ => ⟨keymap, interval, hparts⟩, fun _ => hclosed⟩, ?_⟩
        intro e he
        cases hparts.symm.trans he

/-- Settings that leave everything open but the program. -/
def usualSettings : Settings :=
  { renderer := some (.text "pygame")
    stackDepth := some .unset
    filename := some (.text "circle.ch8")
    scale := some .unset
    keymap := some .unset
    clockSpeed := some .unset }

/-- Settings with a keymap of one key, which is refused. -/
def oneKey : Settings := { usualSettings with keymap := some (.text "1") }

/-- A window system, and a program that goes round in circles while the clock is read once. -/
def circling : Surroundings :=
  { contentOf := fun _ => .ok [0x12, 0x00]
    windows := true
    batches := []
    clock := { reading := fun k => (k : Rat), limit := 1 }
    rng := Rng.cycle [] }

/-- With the usual keymap the window is closed although the run is broken off; with one key it
stays open. -/
theorem window_closed_iff_oneKey :
    (.initialise ∈ (launch usualSettings circling .off).trail.calls ∧
      Closed (launch usualSettings circling .off).trail.calls) ∧
    .initialise ∈ (launch oneKey circling .off).trail.calls ∧
      (launch oneKey circling .off).result = .error (.keymap .wrongCount) ∧
      ∃ width, 64 ≤ width ∧ (launch oneKey circling .off).trail.calls =
        #[.initialise, .caption applicationName, .mode width (width / 2)] := by
  have hopened : .initialise ∈ (launch usualSettings circling .off).trail.calls := by
    decide +kernel
  have hopened_oneKey : .initialise ∈ (launch oneKey circling .off).trail.calls := by
    decide +kernel
  have hmade : usualSettings.keysAndInterval.isOk = true := by decide +kernel
  have hbuilt : ∃ keymap interval, usualSettings.keysAndInterval = .ok (keymap, interval) := by
    cases hparts : usualSettings.keysAndInterval with
    | ok parts => exact ⟨_, _, rfl⟩
    | error e =>
        rw [hparts] at hmade
        cases hmade
  have hrefused : oneKey.keysAndInterval = .error (.keymap .wrongCount) := rfl
  obtain ⟨hclosed, -⟩ := window_closed_iff usualSettings circling .off hopened
  obtain ⟨-, hstays⟩ := window_closed_iff oneKey circling .off hopened_oneKey
  exact ⟨⟨hopened, hclosed.2 hbuilt⟩, hopened_oneKey, hstays _ hrefused⟩

/-- Not every window that was opened is closed. -/
theorem window_left_open :
    ¬∀ (s : Settings) (around : Surroundings) (log : Log),
      .initialise ∈ (launch s around log).trail.calls →
        Closed (launch s around log).trail.calls := by
  intro h
  have hopened : .initialise ∈ (launch oneKey circling .off).trail.calls := by decide +kernel
  have hnot : ¬Closed (launch oneKey circling .off).trail.calls := by decide +kernel
  exact hnot (h oneKey circling .off hopened)

end Chip8
