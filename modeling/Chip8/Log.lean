/-!
# Chip8.Log

The record of what happens: lines with a level and a source.  A log keeps the
lines from its threshold up, and none without a threshold; nothing else depends
on it.
-/

namespace Chip8

/-- How important a line is, in ascending order. -/
inductive Level
  | debug
  | info
  | warning
  deriving DecidableEq, Repr

namespace Level

def name : Level → String
  | debug => "DEBUG"
  | info => "INFO"
  | warning => "WARNING"

/-- The level with a given name. -/
def ofName? (s : String) : Option Level := [debug, info, warning].find? fun l => l.name == s

/-- The place in the order of importance. -/
def rank : Level → Nat
  | debug => 0
  | info => 1
  | warning => 2

end Level

/-- The part of the program that reports. -/
inductive Source
  | program
  | emulator
  | host
  deriving DecidableEq, Repr

def Source.name : Source → String
  | program => "c8core"
  | emulator => "c8core.emulator"
  | host => "c8core.host"

/-- One line of a log. -/
structure Entry where
  level : Level
  source : Source
  text : String
  deriving DecidableEq, Repr

/-- The line as it is written. -/
def Entry.line (e : Entry) : String :=
  "[" ++ e.level.name ++ "] " ++ e.source.name ++ ": " ++ e.text

/-- The lines kept so far, in order, and the least level that is kept. -/
structure Log where
  threshold : Option Level
  entries : Array Entry := #[]
  deriving DecidableEq, Repr

namespace Log

/-- A log that keeps nothing. -/
def off : Log := { threshold := none }

/-- Whether lines of a level are kept. -/
def keeps (log : Log) (level : Level) : Bool :=
  match log.threshold with
  | none => false
  | some least => least.rank ≤ level.rank

/-- Adds a line, which is made only if it is kept. -/
def add (log : Log) (level : Level) (source : Source) (text : Unit → String) : Log :=
  if log.keeps level then { log with entries := log.entries.push ⟨level, source, text ()⟩ }
  else log

/-- The log without the lines that it has kept so far. -/
def emptied (log : Log) : Log := { log with entries := #[] }

/-- Adding a line does not change what is kept. -/
theorem threshold_add (log : Log) (level : Level) (source : Source) (text : Unit → String) :
    (log.add level source text).threshold = log.threshold := by
  unfold add
  split <;> rfl

end Log

end Chip8
