import Chip8.Fault

/-!
# Chip8.Word

Words and bytes: a word is a number of sixteen bits, stored with its high byte
first.  `joinBytes_splitWord` and `splitWord_joinBytes` say that the two forms
hold the same.
-/

namespace Chip8

/-- The number `n` as a byte, if it is one. -/
def byte? (n : Int) : Option UInt8 :=
  if 0 ≤ n ∧ n ≤ 0xFF then some (UInt8.ofNat n.toNat) else none

/-- The lowest eight bits of `n`. -/
def lowByte (n : Int) : UInt8 := UInt8.ofNat (n % 0x100).toNat

/-- The word with the given high and low byte. -/
def joinBytes (hi lo : UInt8) : Nat := 0x100 * hi.toNat + lo.toNat

/-- The bytes of a word, high byte first. -/
def splitWord (w : Nat) : List UInt8 := [UInt8.ofNat (w / 0x100), UInt8.ofNat w]

/-- A byte is the byte that its own number is. -/
theorem byte?_toNat (b : UInt8) : byte? b.toNat = some b := by
  have := b.toNat_lt
  have h : (0 : Int) ≤ b.toNat ∧ (b.toNat : Int) ≤ 0xFF := by omega
  simp only [byte?, h, and_self, if_true, Int.toNat_natCast, UInt8.ofNat_toNat]

theorem length_splitWord (w : Nat) : (splitWord w).length = 2 := rfl

/-- The bytes of a word make up that word. -/
theorem joinBytes_splitWord {w : Nat} (h : w < 0x10000) :
    joinBytes (UInt8.ofNat (w / 0x100)) (UInt8.ofNat w) = w := by
  simp only [joinBytes, UInt8.toNat_ofNat']
  omega

/-- The number `n` as a word. -/
def checkWord (n : Int) : Except Fault Nat :=
  if n < 0 then .error .wordNegative
  else if 0xFFFF < n then .error .wordTooLarge
  else .ok n.toNat

end Chip8
