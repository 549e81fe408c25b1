import Chip8.Startup

/-!
# Chip8.Main

The command line program.  It reads the file and the clock and writes the log to
standard error; everything else is decided by `Starting.host` and
`Host.advance`.  There is no window system here.
-/

namespace Chip8

/-- The clock now. -/
def now : IO Time := do
  return Binary64.round (mkRat (← IO.monoNanosNow) 1000000000)

/-- Reads a file. -/
def readContent (name : String) : IO (Except FileError (List UInt8)) := do
  try
    return .ok (← IO.FS.readBinFile name).toList
  catch
    | .noFileOrDirectory .. => return .error (.notFound name)
    | .inappropriateType .. => return .error (.isDirectory name)
    | e => throw e

/-- Writes the lines of a log. -/
def writeLog (log : Log) : IO Unit := do
  for e in log.entries do
    IO.eprintln e.line

/-- Writes what the host has to say, so that it need not be kept. -/
def report (h : Host) : IO Host := do
  writeLog h.emulator.log
  return { h with emulator := { h.emulator with log := h.emulator.log.emptied } }

/-- Reads the clock and goes on, until the run ends. -/
partial def drive (h : Host) (pace : Pace) : IO (Except Fault Ending) := do
  let (progress, h) := h.advance pace (← now)
  let h ← report h
  match progress with
  | .going pace => drive h pace
  | .ended r => return r

/-- Runs a program with the given options; the answer is the exit status. -/
def execute (o : Options) : IO UInt32 := do
  let content ← readContent (o.filename.getD "")
  let seed ← IO.rand 0 0xFFFFFFFF
  let around : Surroundings :=
    { contentOf := fun _ => content, windows := false, batches := [],
      clock := Clock.steady 0 0 1 0, rng := Rng.ofSeed seed.toUInt64 }
  let log : Log := { threshold := some (if o.debug then .debug else .info) }
  match (Starting.host o.toSettings around).run { log } with
  | .error e trail =>
    writeLog trail.log
    IO.eprintln e.message
    return 1
  | .ok host _ =>
    match ← drive host.start .ready with
    | .ok ending => return (exitCode ending).toUInt32
    | .error e =>
      IO.eprintln e.message
      return 1

end Chip8

/-- Reads the arguments and runs the program that they ask for. -/
def main (arguments : List String) : IO UInt32 := do
  match Chip8.CommandLine.parse arguments with
  | .ok o => Chip8.execute o
  | .error .help =>
    IO.println Chip8.CommandLine.usage
    return 0
  | .error (.wrong e) =>
    IO.eprintln Chip8.CommandLine.usage
    IO.eprint (Chip8.CommandLine.errorText e)
    return 2
