/-!
# Chip8.Opcode

The instruction table: the thirty-four opcodes, the operand fields that each
one uses, the bits that are fixed in its words, and how it is written in
assembly.

An operand always sits in the same place in the word, whatever the opcode, so
an opcode's *format* (which fields it has) decides how its words divide into
fixed bits and operands.

The opcode of a word is looked up without trying formats: the family that the
first four bits name has a mask, and what the mask leaves of the word is looked
up among the patterns.  `Opcode.ofWord?_eq_some_iff` says that this finds the
opcode whose fixed bits the word has, so no word has those of two opcodes.
-/

namespace Chip8

/-! ## Opcodes -/

/-- The opcodes, in the order of their numbers. -/
inductive Opcode
  | clear
  | ret
  | jump
  | call
  | skipEq
  | skipNeq
  | skipEqReg
  | load
  | addImm
  | move
  | or
  | and
  | xor
  | addReg
  | subReg
  | shiftRight
  | subRegRev
  | shiftLeft
  | skipNeqReg
  | loadI
  | jumpOffset
  | random
  | draw
  | skipKeyDown
  | skipKeyUp
  | getDelay
  | waitKey
  | setDelay
  | setSound
  | addToI
  | fontAddr
  | toBcd
  | storeRegs
  | loadRegs
  deriving DecidableEq, Repr

namespace Opcode

/-- Every opcode, in order. -/
def all : List Opcode :=
  [clear, ret, jump, call, skipEq, skipNeq, skipEqReg, load, addImm, move, or, and, xor, addReg,
   subReg, shiftRight, subRegRev, shiftLeft, skipNeqReg, loadI, jumpOffset, random, draw,
   skipKeyDown, skipKeyUp, getDelay, waitKey, setDelay, setSound, addToI, fontAddr, toBcd,
   storeRegs, loadRegs]

theorem mem_all (op : Opcode) : op ∈ all := by cases op <;> decide

/-- The number of an opcode; the first has number one. -/
def number (op : Opcode) : Nat := all.idxOf op + 1

/-- The name by which an opcode is asked for and reported. -/
def name : Opcode → String
  | clear => "CLEAR"
  | ret => "RETURN"
  | jump => "JUMP"
  | call => "CALL"
  | skipEq => "SKIP_EQ"
  | skipNeq => "SKIP_NEQ"
  | skipEqReg => "SKIP_EQ_REG"
  | load => "LOAD"
  | addImm => "ADD_IMM"
  | move => "MOVE"
  | or => "OR"
  | and => "AND"
  | xor => "XOR"
  | addReg => "ADD_REG"
  | subReg => "SUB_REG"
  | shiftRight => "SHIFT_RIGHT"
  | subRegRev => "SUB_REG_REV"
  | shiftLeft => "SHIFT_LEFT"
  | skipNeqReg => "SKIP_NEQ_REG"
  | loadI => "LOAD_I"
  | jumpOffset => "JUMP_OFFSET"
  | random => "RANDOM"
  | draw => "DRAW"
  | skipKeyDown => "SKIP_KEY_DOWN"
  | skipKeyUp => "SKIP_KEY_UP"
  | getDelay => "GET_DELAY"
  | waitKey => "WAIT_KEY"
  | setDelay => "SET_DELAY"
  | setSound => "SET_SOUND"
  | addToI => "ADD_TO_I"
  | fontAddr => "FONT_ADDR"
  | toBcd => "TO_BCD"
  | storeRegs => "STORE_REGS"
  | loadRegs => "LOAD_REGS"

/-- The opcode with a given name. -/
def ofName? (s : String) : Option Opcode := all.find? fun op => op.name == s

end Opcode

/-! ## Operand fields -/

/-- The places in a word where an operand can sit: a register in bits 8 to 11
or 4 to 7, a nibble in bits 0 to 3, a byte in bits 0 to 7, an address in bits
0 to 11. -/
inductive Field
  | x
  | y
  | n
  | kk
  | nnn
  deriving DecidableEq, Repr

namespace Field

/-- Every field, in the order in which operands are listed and checked. -/
def all : List Field := [x, y, n, kk, nnn]

theorem mem_all (f : Field) : f ∈ all := by cases f <;> decide

/-- The letters that stand for a field. -/
def name : Field → String
  | x => "x"
  | y => "y"
  | n => "n"
  | kk => "kk"
  | nnn => "nnn"

/-- The largest operand that a field has room for. -/
def max : Field → Nat
  | x => 0xF
  | y => 0xF
  | n => 0xF
  | kk => 0xFF
  | nnn => 0xFFF

/-- The hexadecimal digits that a field takes up in assembly text. -/
def width : Field → Nat
  | x => 1
  | y => 1
  | n => 1
  | kk => 2
  | nnn => 3

end Field

/-! ## Formats -/

/-- Which operand fields an opcode has. -/
inductive Format
  | plain
  | address
  | register
  | immediate
  | pair
  | sprite
  deriving DecidableEq, Repr

namespace Format

/-- The fields of a format. -/
def fields : Format → List Field
  | plain => []
  | address => [.nnn]
  | register => [.x]
  | immediate => [.x, .kk]
  | pair => [.x, .y]
  | sprite => [.x, .y, .n]

/-- A word with the operand bits of a format cleared. -/
def fixed : Format → Nat → Nat
  | plain, w => w
  | address, w => w - w % 0x1000
  | register, w => w - w % 0x1000 + w % 0x100
  | immediate, w => w - w % 0x1000
  | pair, w => w - w % 0x1000 + w % 0x10
  | sprite, w => w - w % 0x1000

/-- No operand reaches into the first four bits. -/
theorem fixed_shiftRight (f : Format) (w : Nat) : f.fixed w >>> 12 = w >>> 12 := by
  cases f <;> simp only [fixed, Nat.shiftRight_eq_div_pow, Nat.reducePow] <;> omega

/-! ### Masks -/

/-- The bits of a word that are no operand bits of a format. -/
def mask : Format → Nat
  | plain => 0xFFFF
  | address => 0xF000
  | register => 0xF0FF
  | immediate => 0xF000
  | pair => 0xF00F
  | sprite => 0xF000

/-- Under a mask, the first four bits and the other twelve are on their own. -/
theorem and_add {q r a b : Nat} (hr : r < 0x1000) (hb : b < 0x1000) :
    0x1000 * q + r &&& 0x1000 * a + b = 0x1000 * (q &&& a) + (r &&& b) := by
  have bit : ∀ {x y : Nat}, y < 0x1000 → ∀ j,
      (0x1000 * x + y).testBit j = if j < 12 then y.testBit j else x.testBit (j - 12) :=
    fun {x y} hy => @Nat.testBit_two_pow_mul_add x y 12 hy
  have hrest : r &&& b < 0x1000 := @Nat.and_lt_two_pow r b 12 hb
  apply Nat.eq_of_testBit_eq
  intro j
  rw [Nat.testBit_and, bit hr, bit hb, bit hrest]
  split <;> rw [Nat.testBit_and]

/-- The last twelve bits of a word, under those of a format's mask. -/
theorem add_and_mask (f : Format) (q : Nat) {r : Nat} (h : r < 0x1000) :
    0x1000 * q + (r &&& f.mask % 0x1000) = f.fixed (0x1000 * q + r) := by
  cases f with
  | plain =>
    have hrest : r &&& 0xFFF = r % 0x1000 := Nat.and_two_pow_sub_one_eq_mod r 12
    simp only [mask, fixed, Nat.reduceMod, hrest]
    omega
  | register =>
    have hrest : r &&& 0xFF = r % 0x100 := Nat.and_two_pow_sub_one_eq_mod r 8
    simp only [mask, fixed, Nat.reduceMod, hrest]
    omega
  | pair =>
    have hrest : r &&& 0xF = r % 0x10 := Nat.and_two_pow_sub_one_eq_mod r 4
    simp only [mask, fixed, Nat.reduceMod, hrest]
    omega
  | address | immediate | sprite =>
    simp only [mask, fixed, Nat.reduceMod, Nat.and_zero]
    omega

/-- A mask leaves the fixed bits of a word. -/
theorem and_mask (f : Format) {w : Nat} (h : w ≤ 0xFFFF) : w &&& f.mask = f.fixed w := by
  have hfamily : w / 0x1000 &&& 0xF = w / 0x1000 := by
    have hmod : w / 0x1000 &&& 0xF = w / 0x1000 % 0x10 := Nat.and_two_pow_sub_one_eq_mod _ 4
    omega
  have hrest : w % 0x1000 < 0x1000 := Nat.mod_lt w (by decide)
  have hmask : f.mask = 0x1000 * 0xF + f.mask % 0x1000 := by cases f <;> rfl
  have hword := Nat.div_add_mod w 0x1000
  calc w &&& f.mask
      = 0x1000 * (w / 0x1000) + w % 0x1000 &&& 0x1000 * 0xF + f.mask % 0x1000 := by
        rw [hword, ← hmask]
    _ = 0x1000 * (w / 0x1000 &&& 0xF) + (w % 0x1000 &&& f.mask % 0x1000) :=
        and_add hrest (Nat.mod_lt _ (by decide))
    _ = f.fixed (0x1000 * (w / 0x1000) + w % 0x1000) := by
        rw [hfamily, f.add_and_mask _ hrest]
    _ = f.fixed w := by rw [hword]

end Format

namespace Opcode

/-- The format of an opcode. -/
def format : Opcode → Format
  | clear | ret => .plain
  | jump | call | loadI | jumpOffset => .address
  | skipEq | skipNeq | load | addImm | random => .immediate
  | skipEqReg | skipNeqReg | move | or | and | xor | addReg | subReg | shiftRight | subRegRev
  | shiftLeft => .pair
  | draw => .sprite
  | skipKeyDown | skipKeyUp | getDelay | waitKey | setDelay | setSound | addToI | fontAddr | toBcd
  | storeRegs | loadRegs => .register

/-- The word of an opcode whose operands are all zero. -/
def pattern : Opcode → Nat
  | clear => 0x00E0
  | ret => 0x00EE
  | jump => 0x1000
  | call => 0x2000
  | skipEq => 0x3000
  | skipNeq => 0x4000
  | skipEqReg => 0x5000
  | load => 0x6000
  | addImm => 0x7000
  | move => 0x8000
  | or => 0x8001
  | and => 0x8002
  | xor => 0x8003
  | addReg => 0x8004
  | subReg => 0x8005
  | shiftRight => 0x8006
  | subRegRev => 0x8007
  | shiftLeft => 0x800E
  | skipNeqReg => 0x9000
  | loadI => 0xA000
  | jumpOffset => 0xB000
  | random => 0xC000
  | draw => 0xD000
  | skipKeyDown => 0xE09E
  | skipKeyUp => 0xE0A1
  | getDelay => 0xF007
  | waitKey => 0xF00A
  | setDelay => 0xF015
  | setSound => 0xF018
  | addToI => 0xF01E
  | fontAddr => 0xF029
  | toBcd => 0xF033
  | storeRegs => 0xF055
  | loadRegs => 0xF065

/-- A pattern has no operand bits. -/
theorem fixed_pattern (op : Opcode) : op.format.fixed op.pattern = op.pattern := by
  cases op <;> rfl

/-! ### Looking up words -/

/-- The mask of a family of words, which their first four bits name.  A family
with a single opcode in it keeps only these. -/
def familyMask : Nat → Nat
  | 0x0 => 0xFFFF
  | 0x5 => 0xF00F
  | 0x8 => 0xF00F
  | 0x9 => 0xF00F
  | 0xE => 0xF0FF
  | 0xF => 0xF0FF
  | _ => 0xF000

/-- The opcode with a given pattern. -/
def ofPattern? (p : Nat) : Option Opcode := all.find? fun op => op.pattern == p

/-- The opcode of a word of sixteen bits. -/
def ofWord? (w : Nat) : Option Opcode := ofPattern? (w &&& familyMask (w >>> 12))

/-- Each opcode is found by its own pattern, and by no other. -/
theorem ofPattern?_eq_some_iff {p : Nat} {op : Opcode} :
    ofPattern? p = some op ↔ op.pattern = p := by
  constructor
  · intro h
    simpa using List.find?_some h
  · rintro rfl
    cases op <;> rfl

/-- The mask of an opcode's family is that of its format. -/
theorem familyMask_pattern (op : Opcode) :
    familyMask (op.pattern >>> 12) = op.format.mask := by
  cases op <;> rfl

/-- The mask of a family is that of some format. -/
theorem exists_mask_eq (family : Nat) : ∃ f : Format, familyMask family = f.mask := by
  unfold familyMask
  split
  · exact ⟨.plain, rfl⟩
  · exact ⟨.pair, rfl⟩
  · exact ⟨.pair, rfl⟩
  · exact ⟨.pair, rfl⟩
  · exact ⟨.register, rfl⟩
  · exact ⟨.register, rfl⟩
  · exact ⟨.address, rfl⟩

/-- The opcode of a word is found exactly when its fixed bits are there. -/
theorem ofWord?_eq_some_iff {w : Nat} {op : Opcode} (h : w ≤ 0xFFFF) :
    ofWord? w = some op ↔ op.format.fixed w = op.pattern := by
  rw [ofWord?, ofPattern?_eq_some_iff]
  -- Either way the word is in the family of the opcode, whose mask is that of the format.
  have same : op.pattern >>> 12 = w >>> 12 →
      w &&& familyMask (w >>> 12) = op.format.fixed w := by
    intro hfamily
    rw [← hfamily, familyMask_pattern, op.format.and_mask h]
  constructor
  · intro hfound
    have hfamily : op.pattern >>> 12 = w >>> 12 := by
      obtain ⟨f, hf⟩ := exists_mask_eq (w >>> 12)
      rw [hfound, hf, f.and_mask h, f.fixed_shiftRight]
    rw [← same hfamily, ← hfound]
  · intro hfixed
    rw [same (by rw [← hfixed, Format.fixed_shiftRight]), hfixed]

end Opcode

/-! ## Assembly text -/

/-- A part of an opcode's assembly text: plain text, or the operand of a field
as a hexadecimal numeral. -/
inductive Piece
  | text (s : String)
  | operand (f : Field)
  deriving DecidableEq, Repr

namespace Opcode

open Piece in
/-- How an opcode is written in assembly. -/
def template : Opcode → List Piece
  | clear => [text "CLS"]
  | ret => [text "RET"]
  | jump => [text "JP 0x", operand .nnn]
  | call => [text "CALL 0x", operand .nnn]
  | skipEq => [text "SE V", operand .x, text ", 0x", operand .kk]
  | skipNeq => [text "SNE V", operand .x, text ", 0x", operand .kk]
  | skipEqReg => [text "SE V", operand .x, text ", V", operand .y]
  | load => [text "LD V", operand .x, text ", 0x", operand .kk]
  | addImm => [text "ADD V", operand .x, text ", 0x", operand .kk]
  | move => [text "LD V", operand .x, text ", V", operand .y]
  | or => [text "OR V", operand .x, text ", V", operand .y]
  | and => [text "AND V", operand .x, text ", V", operand .y]
  | xor => [text "XOR V", operand .x, text ", V", operand .y]
  | addReg => [text "ADD V", operand .x, text ", V", operand .y]
  | subReg => [text "SUB V", operand .x, text ", V", operand .y]
  | shiftRight => [text "SHR V", operand .x, text ", V", operand .y]
  | subRegRev => [text "SUBN V", operand .x, text ", V", operand .y]
  | shiftLeft => [text "SHL V", operand .x, text ", V", operand .y]
  | skipNeqReg => [text "SNE V", operand .x, text ", V", operand .y]
  | loadI => [text "LD I, 0x", operand .nnn]
  | jumpOffset => [text "JP V0, 0x", operand .nnn]
  | random => [text "RND V", operand .x, text ", 0x", operand .kk]
  | draw => [text "DRW V", operand .x, text ", V", operand .y, text ", 0x", operand .n]
  | skipKeyDown => [text "SKP V", operand .x]
  | skipKeyUp => [text "SKNP V", operand .x]
  | getDelay => [text "LD V", operand .x, text ", DT"]
  | waitKey => [text "LD V", operand .x, text ", K"]
  | setDelay => [text "LD DT, V", operand .x]
  | setSound => [text "LD ST, V", operand .x]
  | addToI => [text "ADD I, V", operand .x]
  | fontAddr => [text "LD F, V", operand .x]
  | toBcd => [text "LD B, V", operand .x]
  | storeRegs => [text "LD [I], V", operand .x]
  | loadRegs => [text "LD V", operand .x, text ", [I]"]

end Opcode

end Chip8
