import Chip8.Instruction
import Chip8.Text.Hex

/-!
# Chip8.Operation

An operation is an instruction as a caller writes it down: an opcode and a
number for every operand field, of any size and sign.  `Chip8.Operation.Check`
says which operations are instructions; the assembly text of an operation does
not ask.
-/

namespace Chip8

/-- An opcode and a number for each operand field, zero where none is
given. -/
structure Operation where
  opcode : Opcode
  x : Int := 0
  y : Int := 0
  n : Int := 0
  kk : Int := 0
  nnn : Int := 0
  deriving DecidableEq, Repr

namespace Operation

/-- The number in a field. -/
def get (o : Operation) : Field → Int
  | .x => o.x
  | .y => o.y
  | .n => o.n
  | .kk => o.kk
  | .nnn => o.nnn

/-- Operations with the same opcode and the same number in every field are the
same. -/
theorem ext_get {o p : Operation} (hop : o.opcode = p.opcode) (h : ∀ f, o.get f = p.get f) :
    o = p := by
  cases o
  cases p
  have hx := h .x
  have hy := h .y
  have hn := h .n
  have hkk := h .kk
  have hnnn := h .nnn
  simp only [get] at hx hy hn hkk hnnn
  simp_all

/-! ## Assembly text -/

/-- A part of the assembly text, with the operands filled in. -/
def renderPiece (o : Operation) : Piece → List Char
  | .text s => s.toList
  | .operand f => hexDigits f.width (o.get f)

/-- The assembly text of an operation. -/
def mnemonic (o : Operation) : String :=
  String.ofList (o.opcode.template.flatMap o.renderPiece)

example : mnemonic { opcode := .skipEq, x := 10, kk := 5 } = "SE Va, 0x05" := by decide +kernel

end Operation

/-! ## Instructions as operations -/

namespace Format

/-- The number that operands have in a field; zero in a field that the format
does not have. -/
def fieldValue : (f : Format) → f.Operands → Field → Int
  | address, a, .nnn => Fin.val a
  | register, x, .x => Fin.val x
  | immediate, (x, _), .x => x.val
  | immediate, (_, kk), .kk => kk.toNat
  | pair, (x, _), .x => x.val
  | pair, (_, y), .y => y.val
  | sprite, (x, _, _), .x => x.val
  | sprite, (_, y, _), .y => y.val
  | sprite, (_, _, n), .n => n.val
  | _, _, _ => 0

/-- The operands of a format with the given numbers in its fields, each cut to
the bits of its field. -/
def ofFields : (f : Format) → (Field → Int) → f.Operands
  | plain, _ => ()
  | address, get => lowAddress (get .nnn).toNat
  | register, get => lowNibble (get .x).toNat
  | immediate, get => (lowNibble (get .x).toNat, UInt8.ofNat (get .kk).toNat)
  | pair, get => (lowNibble (get .x).toNat, lowNibble (get .y).toNat)
  | sprite, get => (lowNibble (get .x).toNat, lowNibble (get .y).toNat, lowNibble (get .n).toNat)

end Format

namespace Instruction

/-- An instruction as an operation, with zero in the fields that it does not
use. -/
def toOperation (i : Instruction) : Operation :=
  let value := i.opcode.format.fieldValue i.operands
  { opcode := i.opcode, x := value .x, y := value .y, n := value .n, kk := value .kk,
    nnn := value .nnn }

theorem get_toOperation (i : Instruction) (f : Field) :
    i.toOperation.get f = i.opcode.format.fieldValue i.operands f := by
  cases f <;> rfl

/-- The assembly text of an instruction. -/
def mnemonic (i : Instruction) : String := i.toOperation.mnemonic

end Instruction

end Chip8
