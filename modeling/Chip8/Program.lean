import Chip8.Operation.Check
import Chip8.Word

/-!
# Chip8.Program

A program is a row of bytes, two for each word.  It can be written from items
or from words, and read back as instructions.
-/

namespace Chip8.Program

/-- The instructions in a row of bytes, `none` for a word that is none.  A last
byte without a partner is left out. -/
def decode : List UInt8 → List (Option Instruction)
  | hi :: lo :: rest => Instruction.ofWord? (joinBytes hi lo) :: decode rest
  | _ => []

/-- The bytes of a row of items; the first item that is no instruction is
reported. -/
def encode : List Item → Except Fault (List UInt8)
  | [] => .ok []
  | item :: rest => do
    let w ← item.toWord
    let bytes ← encode rest
    return splitWord w ++ bytes

/-- The bytes of a row of words; the first number that is no word is
reported. -/
def ofWords : List Int → Except Fault (List UInt8)
  | [] => .ok []
  | n :: rest => do
    let w ← checkWord n
    let bytes ← ofWords rest
    return splitWord w ++ bytes

end Chip8.Program
