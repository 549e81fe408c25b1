import Chip8.Emulator
import Chip8.Keymap

/-!
# Chip8.Input

Key events of the host.  Events come in batches; a keymap says which keys of the
keypad they mean.  Closing the window or letting Escape go asks to quit, but the
rest of the batch still counts.
-/

namespace Chip8

/-- Something that happened on the host. -/
inductive Event
  | quit
  | keyDown (code : Int)
  | keyUp (code : Int)
  | other
  deriving DecidableEq, Repr

namespace Event

/-- The event with a given type number. -/
def ofType (type code : Int) : Event :=
  if type = 256 then quit
  else if type = 768 then keyDown code
  else if type = 769 then keyUp code
  else other

/-- The code of the Escape key. -/
def escape : Int := 27

/-- Whether an event asks to quit. -/
def asksToQuit : Event → Bool
  | quit => true
  | keyUp code => code = escape
  | _ => false

/-- Hands an event on to the emulator.  The keymap has only keys that there are,
so the emulator does not refuse it. -/
def deliver (keymap : Keymap) (e : Emulator) : Event → Emulator
  | keyDown code =>
    match keymap.key? code with
    | some k => (e.keyDown k.val).toOption.getD e
    | none => e
  | keyUp code =>
    if code = escape then e
    else
      match keymap.key? code with
      | some k => (e.keyUp k.val).toOption.getD e
      | none => e
  | _ => e

theorem deliver_keyDown (keymap : Keymap) (e : Emulator) (code : Int) :
    (keyDown code).deliver keymap e = (keymap.key? code).elim e (e.moveKey · true) := by
  cases hkey : keymap.key? code with
  | none => rw [deliver, hkey, Option.elim_none]
  | some k =>
    simp only [deliver, hkey, e.keyDown_val]
    rfl

theorem deliver_keyUp (keymap : Keymap) (e : Emulator) {code : Int} (h : code ≠ escape) :
    (keyUp code).deliver keymap e = (keymap.key? code).elim e (e.moveKey · false) := by
  cases hkey : keymap.key? code with
  | none => rw [deliver, if_neg h, hkey, Option.elim_none]
  | some k =>
    simp only [deliver, if_neg h, hkey, e.keyUp_val]
    rfl

/-- Hands a batch of events on; the answer is whether any of them asks to
quit. -/
def deliverAll (keymap : Keymap) (e : Emulator) (batch : List Event) : Bool × Emulator :=
  (batch.any asksToQuit, batch.foldl (deliver keymap) e)

end Event

/-- Where events come from: a keymap, and the batches that are still to come.  A
headless source never asks for them. -/
structure Inputs where
  keymap : Keymap
  headless : Bool
  batches : List (List Event)

namespace Inputs

/-- Takes the next batch and hands it on; the answer is whether to quit. -/
def process (inputs : Inputs) (e : Emulator) : Bool × Inputs × Emulator :=
  if inputs.headless then (false, inputs, e)
  else
    let (quit, e) := Event.deliverAll inputs.keymap e (inputs.batches.headD [])
    (quit, { inputs with batches := inputs.batches.tail }, e)

end Inputs

end Chip8
