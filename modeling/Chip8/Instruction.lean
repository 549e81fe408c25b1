import Chip8.Opcode

/-!
# Chip8.Instruction

An instruction is an opcode together with operands of the opcode's format.
Operands have the types of what they name (registers, bytes, addresses), so
every value of `Instruction` is one that a word can hold.

`Instruction.toWord` and `Instruction.ofWord?` are the two directions of the
word codec; `Instruction.ofWord?_eq_some_iff` states that they are inverse to
each other.
-/

namespace Chip8

/-! ## Operands -/

/-- One of the registers V0 to VF. -/
abbrev Register := Fin 16

/-- A four-bit number, such as the height of a sprite. -/
abbrev Nibble := Fin 16

/-- A twelve-bit address. -/
abbrev Address := Fin 0x1000

/-- The lowest four bits of a number. -/
def lowNibble (n : Nat) : Nibble := ⟨n % 16, Nat.mod_lt n (by decide)⟩

/-- The lowest twelve bits of a number. -/
def lowAddress (n : Nat) : Address := ⟨n % 0x1000, Nat.mod_lt n (by decide)⟩

@[simp] theorem val_lowNibble (n : Nat) : (lowNibble n).val = n % 16 := rfl

@[simp] theorem val_lowAddress (n : Nat) : (lowAddress n).val = n % 0x1000 := rfl

namespace Format

/-- The operands of a format. -/
def Operands : Format → Type
  | plain => Unit
  | address => Address
  | register => Register
  | immediate => Register × UInt8
  | pair => Register × Register
  | sprite => Register × Register × Nibble

instance (f : Format) : DecidableEq f.Operands :=
  match f with
  | plain => inferInstanceAs (DecidableEq Unit)
  | address => inferInstanceAs (DecidableEq Address)
  | register => inferInstanceAs (DecidableEq Register)
  | immediate => inferInstanceAs (DecidableEq (Register × UInt8))
  | pair => inferInstanceAs (DecidableEq (Register × Register))
  | sprite => inferInstanceAs (DecidableEq (Register × Register × Nibble))

/-- The operands in a word of a format. -/
def ofWord : (f : Format) → Nat → f.Operands
  | plain, _ => ()
  | address, w => lowAddress w
  | register, w => lowNibble (w / 0x100)
  | immediate, w => (lowNibble (w / 0x100), UInt8.ofNat w)
  | pair, w => (lowNibble (w / 0x100), lowNibble (w / 0x10))
  | sprite, w => (lowNibble (w / 0x100), lowNibble (w / 0x10), lowNibble w)

/-- Operands in their places of an otherwise empty word. -/
def toWord : (f : Format) → f.Operands → Nat
  | plain, _ => 0
  | address, a => a.val
  | register, x => 0x100 * x.val
  | immediate, (x, kk) => 0x100 * x.val + kk.toNat
  | pair, (x, y) => 0x100 * x.val + 0x10 * y.val
  | sprite, (x, y, n) => 0x100 * x.val + 0x10 * y.val + n.val

/-- A word is its fixed bits and its operands. -/
theorem fixed_add_toWord_ofWord (f : Format) (w : Nat) : f.fixed w + f.toWord (f.ofWord w) = w := by
  cases f <;> simp [fixed, toWord, ofWord] <;> omega

/-- Operands fit below their format's fixed bits. -/
theorem toWord_lt (f : Format) (o : f.Operands) : f.toWord o < 0x1000 := by
  cases f with
  | plain => exact Nat.zero_lt_succ _
  | address => exact Fin.isLt (o : Address)
  | register =>
    have hx : Fin.val (o : Register) < 16 := Fin.isLt _
    change 0x100 * Fin.val (o : Register) < 0x1000
    omega
  | immediate =>
    obtain ⟨x, kk⟩ := o
    have := kk.toNat_lt
    change 0x100 * x.val + kk.toNat < 0x1000
    omega
  | pair =>
    obtain ⟨x, y⟩ := o
    change 0x100 * x.val + 0x10 * y.val < 0x1000
    omega
  | sprite =>
    obtain ⟨x, y, n⟩ := o
    change 0x100 * x.val + 0x10 * y.val + n.val < 0x1000
    omega

/-- A single register leaves the low byte of its word free. -/
theorem toWord_le_of_register {f : Format} (o : f.Operands) (h : f = .register) :
    f.toWord o ≤ 0xF00 := by
  subst h
  have hx : Fin.val (o : Register) < 16 := Fin.isLt _
  change 0x100 * Fin.val (o : Register) ≤ 0xF00
  omega

/-- Operands do not touch the fixed bits. -/
theorem fixed_add_toWord (f : Format) (w : Nat) (o : f.Operands) (h : f.fixed w = w) :
    f.fixed (w + f.toWord o) = w := by
  cases f with
  | plain => exact h
  | address =>
    have ha : Fin.val (o : Address) < 0x1000 := Fin.isLt _
    change w - w % 0x1000 = w at h
    change (w + Fin.val (o : Address)) - (w + Fin.val (o : Address)) % 0x1000 = w
    omega
  | register =>
    have hx : Fin.val (o : Register) < 16 := Fin.isLt _
    change w - w % 0x1000 + w % 0x100 = w at h
    change (w + 0x100 * Fin.val (o : Register)) - (w + 0x100 * Fin.val (o : Register)) % 0x1000
      + (w + 0x100 * Fin.val (o : Register)) % 0x100 = w
    omega
  | immediate =>
    obtain ⟨x, kk⟩ := o
    have hk := kk.toNat_lt
    change w - w % 0x1000 = w at h
    change (w + (0x100 * x.val + kk.toNat)) - (w + (0x100 * x.val + kk.toNat)) % 0x1000 = w
    omega
  | pair =>
    obtain ⟨x, y⟩ := o
    change w - w % 0x1000 + w % 0x10 = w at h
    change (w + (0x100 * x.val + 0x10 * y.val)) - (w + (0x100 * x.val + 0x10 * y.val)) % 0x1000
      + (w + (0x100 * x.val + 0x10 * y.val)) % 0x10 = w
    omega
  | sprite =>
    obtain ⟨x, y, n⟩ := o
    change w - w % 0x1000 = w at h
    change (w + (0x100 * x.val + 0x10 * y.val + n.val))
      - (w + (0x100 * x.val + 0x10 * y.val + n.val)) % 0x1000 = w
    omega

/-- Operands are read back from their places. -/
theorem ofWord_add_toWord (f : Format) (w : Nat) (o : f.Operands) (h : f.fixed w = w) :
    f.ofWord (w + f.toWord o) = o := by
  cases f with
  | plain => rfl
  | address =>
    have ha : Fin.val (o : Address) < 0x1000 := Fin.isLt _
    change w - w % 0x1000 = w at h
    apply Fin.ext
    change (w + Fin.val (o : Address)) % 0x1000 = Fin.val (o : Address)
    omega
  | register =>
    have hx : Fin.val (o : Register) < 16 := Fin.isLt _
    change w - w % 0x1000 + w % 0x100 = w at h
    apply Fin.ext
    change (w + 0x100 * Fin.val (o : Register)) / 0x100 % 16 = Fin.val (o : Register)
    omega
  | immediate =>
    obtain ⟨x, kk⟩ := o
    have hk := kk.toNat_lt
    change w - w % 0x1000 = w at h
    refine Prod.ext (Fin.ext ?_) (UInt8.toNat_inj.1 ?_)
    · change (w + (0x100 * x.val + kk.toNat)) / 0x100 % 16 = x.val
      omega
    · change (w + (0x100 * x.val + kk.toNat)) % 0x100 = kk.toNat
      omega
  | pair =>
    obtain ⟨x, y⟩ := o
    change w - w % 0x1000 + w % 0x10 = w at h
    refine Prod.ext (Fin.ext ?_) (Fin.ext ?_)
    · change (w + (0x100 * x.val + 0x10 * y.val)) / 0x100 % 16 = x.val
      omega
    · change (w + (0x100 * x.val + 0x10 * y.val)) / 0x10 % 16 = y.val
      omega
  | sprite =>
    obtain ⟨x, y, n⟩ := o
    change w - w % 0x1000 = w at h
    refine Prod.ext (Fin.ext ?_) (Prod.ext (Fin.ext ?_) (Fin.ext ?_))
    · change (w + (0x100 * x.val + 0x10 * y.val + n.val)) / 0x100 % 16 = x.val
      omega
    · change (w + (0x100 * x.val + 0x10 * y.val + n.val)) / 0x10 % 16 = y.val
      omega
    · change (w + (0x100 * x.val + 0x10 * y.val + n.val)) % 16 = n.val
      omega

end Format

/-! ## Instructions -/

/-- An opcode and its operands. -/
structure Instruction where
  opcode : Opcode
  operands : opcode.format.Operands
  deriving DecidableEq

namespace Instruction

/-- The word of an instruction, a number of sixteen bits. -/
def toWord (i : Instruction) : Nat := i.opcode.pattern + i.opcode.format.toWord i.operands

/-- The instruction with a given word, if there is one; a number that sixteen
bits do not hold is no word. -/
def ofWord? (w : Nat) : Option Instruction :=
  if w ≤ 0xFFFF then (Opcode.ofWord? w).map fun op => ⟨op, op.format.ofWord w⟩ else none

/-- Words have sixteen bits. -/
theorem toWord_lt (i : Instruction) : i.toWord < 0x10000 := by
  have table : ∀ op : Opcode,
      op.pattern ≤ 0xF000 ∨ op.format = .register ∧ op.pattern ≤ 0xF0FF := by
    intro op
    cases op <;> decide
  have room := Format.toWord_lt _ i.operands
  unfold toWord
  rcases table i.opcode with h | ⟨hf, hp⟩
  · omega
  · have := Format.toWord_le_of_register i.operands hf
    omega

/-- An instruction is read back from its word. -/
theorem ofWord?_toWord (i : Instruction) : ofWord? i.toWord = some i := by
  have hle : i.toWord ≤ 0xFFFF := Nat.le_of_lt_succ i.toWord_lt
  obtain ⟨op, o⟩ := i
  have hfix := Opcode.fixed_pattern op
  have hop : Opcode.ofWord? (op.pattern + op.format.toWord o) = some op :=
    (Opcode.ofWord?_eq_some_iff hle).2 (Format.fixed_add_toWord _ _ _ hfix)
  rw [ofWord?, if_pos hle]
  simp [toWord, hop, Format.ofWord_add_toWord _ _ _ hfix]

/-- A word that is read is the word of what was read. -/
theorem toWord_of_ofWord? {w : Nat} {i : Instruction} (h : ofWord? w = some i) :
    i.toWord = w := by
  unfold ofWord? at h
  split at h
  · rename_i hle
    obtain ⟨op, hop, rfl⟩ := Option.map_eq_some_iff.1 h
    have hfixed := (Opcode.ofWord?_eq_some_iff hle).1 hop
    rw [toWord, ← hfixed, Format.fixed_add_toWord_ofWord]
  · cases h

/-- A word is read as an instruction exactly when it is that instruction's
word. -/
theorem ofWord?_eq_some_iff {w : Nat} {i : Instruction} : ofWord? w = some i ↔ i.toWord = w :=
  ⟨toWord_of_ofWord?, fun h => h ▸ ofWord?_toWord i⟩

/-- The instruction with a given word; a negative number is no word. -/
def decode (w : Int) : Option Instruction := if 0 ≤ w then ofWord? w.toNat else none

end Instruction

end Chip8
