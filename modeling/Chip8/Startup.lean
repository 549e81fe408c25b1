import Chip8.CommandLine
import Chip8.FileStore
import Chip8.Host
import Chip8.Setting

/-!
# Chip8.Startup

Puts the parts together and runs a program: from a table of settings, or from
the arguments of a command line.

What can be seen from outside, the log and the calls to the window system, is
reported however the start or the run ends.  The window is closed once the host
has run; if something goes wrong between opening it and running, it stays open.
-/

namespace Chip8

/-- A table of settings, in which any entry may be missing. -/
structure Settings where
  renderer : Option Setting
  stackDepth : Option Setting
  filename : Option Setting
  scale : Option Setting
  keymap : Option Setting
  clockSpeed : Option Setting

/-- The entry for what a switch was given. -/
def Given.toSetting {α : Type} (atom : α → Atom) : Given α → Setting
  | unset => .unset
  | empty => .row []
  | value a => .single (atom a)

/-- The settings that options ask for. -/
def Options.toSettings (o : Options) : Settings :=
  { renderer := some (o.renderer.toSetting .text)
    stackDepth := some (o.stackDepth.toSetting .number)
    filename := some (.single (o.filename.elim .nothing .text))
    scale := some (o.scale.toSetting .number)
    keymap := some (o.keymap.toSetting .text)
    clockSpeed := some (o.clockSpeed.toSetting .number) }

/-- What a program runs in. -/
structure Surroundings where
  contentOf : String → Except FileError (List UInt8)
  /-- Whether there is a window system. -/
  windows : Bool
  batches : List (List Event)
  clock : Clock
  rng : Rng

/-- Why a program was not run, or not to its end. -/
inductive StartupError
  | missing (name : String)
  | noWindowSystem
  | unknownRenderer (name : String)
  /-- A number is asked for and something else was found, of which this is the
  kind; `order` is how the number was to be compared. -/
  | notNumber (order kind : String)
  /-- A text is asked for and something else was found, of which this is the
  kind. -/
  | notText (kind : String)
  | file (e : FileError)
  | refused (e : Fault)
  | window (e : WindowTooNarrow)
  | keymap (e : KeymapError)
  | speed (e : SpeedTooLarge)
  | run (e : HostError)
  deriving DecidableEq, Repr

def StartupError.message : StartupError → String
  | missing name => quoted name
  | noWindowSystem => "PyGame does not appear to be installed."
  | unknownRenderer name => "Unknown renderer '" ++ name ++ "'."
  | notNumber order kind =>
    "'" ++ order ++ "' not supported between instances of '" ++ kind ++ "' and 'int'"
  | notText kind => "'" ++ kind ++ "' object has no attribute 'split'"
  | file e => e.message
  | refused e => e.message
  | window e => e.message
  | keymap e => e.message
  | speed e => e.message
  | run e => e.message

/-! ## What settings ask for -/

namespace Setting

/-- The number that is asked for, if not the usual one is meant; `order` is how
it is to be compared. -/
def numberFor (order : String) (s : Setting) : Except StartupError (Option Int) :=
  match s with
  | unset => .ok none
  | s =>
    match s.number? with
    | some n => .ok (some n)
    | none => .error (.notNumber order s.kind)

/-- The kind of what is given in the place of a number. -/
def kindUnlessNumber : Setting → Option String
  | unset => none
  | s => if s.number?.isSome then none else some s.kind

/-- Whether a window is asked for; the usual renderer has one. -/
def wantsWindow (s : Setting) (windows : Bool) : Except StartupError Bool :=
  match if s.isBlank then text "pygame" else s with
  | text "pygame" => if windows then .ok true else .error .noWindowSystem
  | text "null" => .ok false
  | s =>
    match s.shown? with
    | some name => .error (.unknownRenderer name)
    | none => .error (.refused .numberTooLong)

/-- The keymap that is written in a text. -/
def keymap (s : Setting) : Except StartupError Keymap :=
  match s with
  | text t => (Keymap.parse t).mapError .keymap
  | s => .error (.notText s.kind)

/-- The keymap that is asked for, or else the usual one. -/
def keymapOrUsual (s : Setting) : Except StartupError Keymap :=
  if s.isBlank then (text Keymap.defaultText).keymap else s.keymap

end Setting

/-- What can be seen from outside. -/
structure Trail where
  log : Log
  calls : Array WindowCall := #[]

/-- A part of the start that may go wrong, and leaves a trail in any case. -/
abbrev Starting := EStateM StartupError Trail

namespace Starting

/-- The name and version of the program. -/
def greeting : String := applicationName ++ " V1.0.0"

/-- Lifts a result into the start. -/
def lift {ε α : Type} (wrong : ε → StartupError) (r : Except ε α) : Starting α :=
  match r with
  | .ok a => pure a
  | .error e => throw (wrong e)

/-- An entry that has to be in the table. -/
def required (name : String) (s : Option Setting) : Starting Setting :=
  match s with
  | none => throw (.missing name)
  | some s => pure s

/-- The emulator with its program. -/
def loaded (s : Settings) (stackDepth : Option Int) (around : Surroundings) :
    Starting Emulator := do
  let emulator ← lift .refused (Emulator.create stackDepth none none around.rng (← get).log)
  let name ← lift .file (← required "filename" s.filename).fileName
  let program ← lift .file (around.contentOf name)
  let emulator ← lift .refused (emulator.loadProgram program)
  modify fun t => { t with log := emulator.log }
  return emulator

/-- The renderer, with its window open if there is one. -/
def opened (s : Settings) (window : Bool) : Starting Renderer := do
  let scale ← required "scale" s.scale
  let renderer ←
    if window then
      let width ← lift id (scale.numberFor "<")
      lift .window (Renderer.windowed width)
    else pure (Renderer.headless scale.number?)
  modify fun t => { t with calls := renderer.calls }
  return renderer

/-- The host, ready to run. -/
def host (s : Settings) (around : Surroundings) : Starting Host := do
  modify fun t => { t with log := t.log.add .info .program fun _ => greeting }
  let window ← lift id ((← required "renderer" s.renderer).wantsWindow around.windows)
  let stackDepth ← required "stack_depth" s.stackDepth
  let emulator ← loaded s stackDepth.number? around
  let renderer ← opened s window
  let keymap ← lift id (← required "keymap" s.keymap).keymapOrUsual
  let inputs : Inputs := { keymap, headless := !window, batches := around.batches }
  let speed ← lift id ((← required "clock_speed" s.clockSpeed).numberFor "<=")
  let host ← lift .speed (Host.create emulator renderer inputs speed)
  return { host with limitKind := stackDepth.kindUnlessNumber }

end Starting

/-- How a program ended, and what could be seen of it. -/
structure Report where
  result : Except StartupError Ending
  trail : Trail
  clock : Clock

/-- Runs a program with a table of settings. -/
def launch (s : Settings) (around : Surroundings) (log : Log) : Report :=
  match (Starting.host s around).run { log } with
  | .error e trail => { result := .error e, trail, clock := around.clock }
  | .ok host _ =>
    let (r, host, clock) := host.run around.clock
    let host := host.shutdown
    { result := r.mapError .run
      trail := { log := host.emulator.log, calls := host.renderer.calls }
      clock }

/-! ## Command line -/

/-- The status with which the command line program ends: one if a call or a
return could not be done. -/
def exitCode : Ending → Nat
  | some .stackUnderflow | some .stackOverflow => 1
  | _ => 0

/-- How the command line program ends: with a status, or with an error that
nothing takes care of; the lines that it writes, and its calls to the window
system. -/
structure CommandReport where
  status : Except StartupError Nat
  lines : List String
  calls : Array WindowCall

/-- Runs the command line program. -/
def runCommand (arguments : List String) (around : Surroundings) : CommandReport :=
  match CommandLine.parse arguments with
  | .error .help => { status := .ok 0, lines := [], calls := #[] }
  | .error (.wrong e) => { status := .ok 2, lines := [CommandLine.errorLine e], calls := #[] }
  | .ok options =>
    let log : Log := { threshold := some (if options.debug then .debug else .info) }
    let report := launch options.toSettings around log
    { status := report.result.map exitCode
      lines := report.trail.log.entries.toList.map Entry.line
      calls := report.trail.calls }

end Chip8
