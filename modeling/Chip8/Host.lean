import Chip8.Input
import Chip8.Renderer
import Chip8.Time.Clock

/-!
# Chip8.Host

Runs an emulator in real time.  Once per frame, a sixtieth of a second, events
are handed on, the timers count down and the screen is shown if it changed.
Between frames, instructions are carried out at the speed of the processor.

The host acts on readings of a clock.  `Host.advance` says what one reading
leads to; `Host.run` goes on until the program halts, the user quits, something
is refused or there are no readings left, and in each of these cases shows the
screen once more if it changed.
-/

namespace Chip8

/-- The time between two frames. -/
def frameInterval : Time := Binary64.inv 60

/-- Instructions in a second unless something else is asked for. -/
def defaultClockSpeed : Int := 700

/-- The speed is too large for a number with a fraction. -/
structure SpeedTooLarge where
  speed : Int
  deriving DecidableEq, Repr

def SpeedTooLarge.message (_ : SpeedTooLarge) : String := "int too large to convert to float"

/-- The time from one instruction to the next, in which there is none for a speed
of zero or less: such a processor goes as fast as it can. -/
def coreInterval (speed : Int) : Except SpeedTooLarge (Option Time) :=
  if speed ≤ 0 then .ok none
  else
    let s := Binary64.round speed
    if Binary64.overflow ≤ s then .error ⟨speed⟩ else .ok (some (Binary64.inv s))

/-- An emulator with what drives it. -/
structure Host where
  emulator : Emulator
  renderer : Renderer
  inputs : Inputs
  /-- The time from one instruction to the next. -/
  interval : Option Time
  /-- When the next frame is due. -/
  nextFrame : Time
  /-- The frames and the instructions so far. -/
  frames : Nat
  steps : Nat
  /-- The kind of what was given for the number of calls that may be under way,
  where it was no number. -/
  limitKind : Option String := none

/-- Why a run of the host ends early. -/
inductive HostError
  | refused (cause : Fault)
  | outOfReadings (limit : Int)
  deriving DecidableEq, Repr

def HostError.message : HostError → String
  | refused cause => cause.message
  | outOfReadings limit => "clock read " ++ toString limit ++ " times"

/-- How a run of the host ends: with the reason for which the machine halted, or
with none because the user quit. -/
abbrev Ending := Option HaltReason

/-- What the host does with the next reading: it goes on at once, or when the
time has come. -/
inductive Pace
  | ready
  | waiting (due : Time)
  deriving Repr

/-- Whether a run goes on. -/
inductive Progress
  | going (pace : Pace)
  | ended (result : Except Fault Ending)

namespace Host

/-- A host that has not done anything yet. -/
def create (emulator : Emulator) (renderer : Renderer) (inputs : Inputs)
    (speed : Option Int) : Except SpeedTooLarge Host := do
  let interval ← coreInterval (speed.getD defaultClockSpeed)
  return { emulator, renderer, inputs, interval, nextFrame := 0, frames := 0, steps := 0 }

/-- Adds a line to the log. -/
def note (h : Host) (text : Unit → String) : Host :=
  { h with emulator := { h.emulator with log := h.emulator.log.add .info .host text } }

/-- Shows the screen if it changed. -/
def refresh (h : Host) : Host :=
  if h.emulator.screen.dirty then
    { h with
      renderer := h.renderer.drawFrame h.emulator.screen.rows
      emulator := { h.emulator with screen := h.emulator.screen.shown } }
  else h

/-- One frame; the answer is whether the user asked to quit, which leaves the
rest of the frame undone. -/
def frame (h : Host) : Bool × Host :=
  let (quit, inputs, emulator) := h.inputs.process h.emulator
  let h := { h with inputs, emulator }
  if quit then (true, h)
  else
    let h := { h with emulator := h.emulator.tick }.refresh
    (false, { h with frames := h.frames + 1 })

/-- Carries out the next instruction, unless it is a call and it is not known how
many there may be. -/
def step (h : Host) : Except Fault Bool × Emulator :=
  match h.limitKind with
  | none => h.emulator.step
  | some kind =>
    match h.emulator.atCall? with
    | none => h.emulator.step
    | some e => (.error (.limitNotNumber kind), e)

/-- Carries out one instruction; the reading `t` decides when the next one is
due. -/
def stepAt (h : Host) (t : Time) : Progress × Host :=
  match h.step with
  | (.ok true, emulator) =>
    let pace :=
      match h.interval with
      | none => .ready
      | some d => .waiting (Binary64.add t d)
    (.going pace, { h with emulator, steps := h.steps + 1 })
  | (.ok false, emulator) =>
    let reason := emulator.haltReason
    let h := { h with emulator }.note fun _ =>
      "Stopped after " ++ toString h.steps ++ " instructions: "
        ++ (reason.map HaltReason.text).getD ""
    (.ended (.ok reason), h)
  | (.error cause, emulator) => (.ended (.error cause), { h with emulator })

/-- A frame if one is due at the reading `t`, and then one instruction. -/
def turn (h : Host) (t : Time) : Progress × Host :=
  if h.nextFrame ≤ t then
    match h.frame with
    | (true, h) =>
      (.ended (.ok none),
        h.note fun _ => "Quit requested after " ++ toString h.steps ++ " instructions")
    | (false, h) => { h with nextFrame := Binary64.add t frameInterval }.stepAt t
  else h.stepAt t

/-- What a reading leads to. -/
def advance (h : Host) (pace : Pace) (t : Time) : Progress × Host :=
  match pace with
  | .ready => h.turn t
  | .waiting due => if t < due then (.going pace, h) else (.going .ready, h)

/-- Goes on as long as there are readings. -/
def runOn (h : Host) (pace : Pace) (clock : Clock) : Except HostError Ending × Host × Clock :=
  match _hread : clock.read? with
  | none => (.error (.outOfReadings clock.limit), h, clock)
  | some (t, rest) =>
    match h.advance pace t with
    | (.going pace, h) => runOn h pace rest
    | (.ended r, h) => (r.mapError .refused, h, rest)
termination_by clock.remaining
decreasing_by exact Clock.remaining_lt_of_read? _hread

/-- Reports where the program starts. -/
def start (h : Host) : Host :=
  h.note fun _ => "Starting at 0x" ++ hex 3 h.emulator.processor.pc

/-- Runs the program; the answer is how the run ended.  Whatever was drawn last
is shown in any case. -/
def run (h : Host) (clock : Clock) : Except HostError Ending × Host × Clock :=
  let (r, h, clock) := h.start.runOn .ready clock
  (r, h.refresh, clock)

/-- Closes what the host has opened. -/
def shutdown (h : Host) : Host := { h with renderer := h.renderer.shutdown }

end Host

end Chip8
