import Chip8.Program

/-!
# Chip8.Proofs.Codec

The codec of words and operations is exact in both directions: a number is decoded to
an operation exactly when the operation is encoded as that number.

* `Operation.Valid` says without the check which operations are instructions;
  `check_isOk_iff` states that these are the ones that it lets pass, and
  `fromCodec_of_check` what the others are refused for.
* `Opcode.wordWith` lays out a word from the pattern of an opcode and numbers in its
  fields; `toWord_of_valid` states that operations are encoded like this, and
  `exists_isWord_iff` that these words are all that there are.
-/

namespace Chip8

/-! ## words and instructions -/

/-- A number is read as an instruction exactly when it is that instruction's word. -/
theorem Instruction.decode_eq_some_iff {w : Int} {i : Instruction} :
    decode w = some i ↔ (i.toWord : Int) = w := by
  have hword := i.toWord_lt
  unfold decode
  split
  · rw [ofWord?_eq_some_iff]
    omega
  · simp only [reduceCtorEq, false_iff]
    omega

/-- The place of a field in a word: its lowest bit. -/
def Field.shift : Field → Nat
  | .x => 8
  | .y => 4
  | .n | .kk | .nnn => 0

/-- The word of an opcode with a number in each of its fields. -/
def Opcode.wordWith (op : Opcode) (value : Field → Nat) : Nat :=
  op.format.fields.foldl (fun w f => w + value f <<< f.shift) op.pattern

/-- The words of an opcode: those with numbers in its fields that fit there. -/
def Opcode.IsWord (op : Opcode) (w : Int) : Prop :=
  ∃ value : Field → Nat, (∀ f ∈ op.format.fields, value f ≤ f.max) ∧ w = op.wordWith value

/-- Numbers that fit in the fields of a format make up its operands. -/
theorem Format.toWord_ofFields (f : Format) {value : Field → Nat}
    (h : ∀ fld ∈ f.fields, value fld ≤ fld.max) (p : Nat) :
    p + f.toWord (f.ofFields fun fld => value fld) =
      f.fields.foldl (fun w fld => w + value fld <<< fld.shift) p := by
  cases f <;>
    simp [fields, Field.max, Field.shift, toWord, ofFields, Nat.shiftLeft_eq] at h ⊢ <;> omega

/-- A word that is laid out from numbers is the word of the instruction with these
operands. -/
theorem Opcode.wordWith_eq_toWord {op : Opcode} {value : Field → Nat}
    (h : ∀ f ∈ op.format.fields, value f ≤ f.max) :
    op.wordWith value = Instruction.toWord ⟨op, op.format.ofFields fun f => value f⟩ :=
  (Format.toWord_ofFields op.format h op.pattern).symm

/-- The number of an operand fits in its field. -/
theorem Instruction.get_le_max (i : Instruction) {f : Field} (hf : f ∈ i.opcode.format.fields) :
    (i.toOperation.get f).toNat ≤ f.max := by
  have hvalid := Format.fieldValue_valid i.opcode.format i.operands f
  rw [if_pos hf] at hvalid
  rw [get_toOperation]
  omega

/-- The numbers of operands are not negative. -/
theorem Instruction.get_nonneg (i : Instruction) (f : Field) : 0 ≤ i.toOperation.get f := by
  have hvalid := Format.fieldValue_valid i.opcode.format i.operands f
  rw [get_toOperation]
  split at hvalid <;> omega

/-- An instruction is laid out from the numbers of its operands. -/
theorem Instruction.toWord_eq_wordWith (i : Instruction) :
    i.toWord = i.opcode.wordWith fun f => (i.toOperation.get f).toNat := by
  have hoperands : (i.opcode.format.ofFields fun f => ((i.toOperation.get f).toNat : Int)) =
      i.operands := by
    have hget : (fun f => ((i.toOperation.get f).toNat : Int)) =
        i.opcode.format.fieldValue i.operands := by
      funext f
      rw [Int.toNat_of_nonneg (i.get_nonneg f), get_toOperation]
    rw [hget, Format.ofFields_fieldValue]
  rw [Opcode.wordWith_eq_toWord fun f hf => i.get_le_max hf, hoperands]

/-- The words of the opcodes are the words of the instructions. -/
theorem exists_isWord_iff {w : Int} :
    (∃ op : Opcode, op.IsWord w) ↔ ∃ i : Instruction, (i.toWord : Int) = w := by
  constructor
  · rintro ⟨op, value, hfit, rfl⟩
    exact ⟨_, congrArg Nat.cast (Opcode.wordWith_eq_toWord hfit).symm⟩
  · rintro ⟨i, rfl⟩
    exact ⟨i.opcode, _, fun f hf => i.get_le_max hf, congrArg Nat.cast i.toWord_eq_wordWith⟩

/-! ## valid operations -/

/-- What the codec refuses something for: that it is no operation, or that a field of an
operation has a number that does not belong there. -/
def Fault.fromCodec : Fault → Prop
  | .notOperation _ | .unusedOperand .. | .operandRange .. => True
  | _ => False

/-- A value is refused by the codec, unless it would have to be a number and is none. -/
theorem Opcode.fromCodec_of_entryFault? {op : Opcode} {f : Field} {v : Value} {cause : Fault}
    (h : op.entryFault? f v = some cause) :
    if f ∈ op.format.fields ∧ v.number? = none then cause = .operandNotNumber v.kind
    else cause.fromCodec := by
  unfold entryFault? at h
  by_cases hf : f ∈ op.format.fields
  · rw [if_pos hf] at h
    cases hnumber : v.number? with
    | none =>
        rw [hnumber] at h
        rw [if_pos ⟨hf, rfl⟩]
        exact (Option.some.inj h).symm
    | some n =>
        rw [hnumber] at h
        rw [if_neg fun hnone => by cases hnone.2]
        obtain ⟨-, hcause⟩ := Option.ite_none_left_eq_some.1 h
        obtain rfl := Option.some.inj hcause
        trivial
  · rw [if_neg hf] at h
    rw [if_neg fun hnone => hf hnone.1]
    obtain ⟨-, hcause⟩ := Option.ite_none_left_eq_some.1 h
    obtain rfl := Option.some.inj hcause
    trivial

namespace Operation

/-- Every field that the opcode uses has a number in range, and every other field has
zero. -/
def Valid (o : Operation) : Prop :=
  ∀ f, if f ∈ o.opcode.format.fields then 0 ≤ o.get f ∧ o.get f ≤ f.max else o.get f = 0

instance (o : Operation) : Decidable o.Valid :=
  decidable_of_iff
    (∀ f ∈ Field.all,
      if f ∈ o.opcode.format.fields then 0 ≤ o.get f ∧ o.get f ≤ f.max else o.get f = 0)
    ⟨fun h f => h f (Field.mem_all f), fun h f _ => h f⟩

theorem fault?_eq_none_iff {o : Operation} : o.entries.fault? o.opcode = none ↔ o.Valid := by
  rw [Entries.fault?_eq_none_iff]
  exact forall_congr' fun f => entryFault?_eq_none_iff

/-- The check lets the valid operations pass. -/
theorem check_isOk_iff {o : Operation} : (∃ i, o.check = .ok i) ↔ o.Valid := by
  rw [← fault?_eq_none_iff]
  unfold check
  cases o.entries.fault? o.opcode with
  | none => simp
  | some cause => simp

theorem fromCodec_of_check {o : Operation} {cause : Fault} (h : o.check = .error cause) :
    cause.fromCodec := by
  unfold check at h
  split at h
  · rename_i e hfault
    obtain rfl := Except.error.inj h
    obtain ⟨f, -, hf⟩ := List.exists_of_findSome?_eq_some hfault
    have hkind := Opcode.fromCodec_of_entryFault? hf
    rwa [Entries.get_entries, if_neg fun hnone => by cases hnone.2] at hkind
  · cases h

/-- An operation is encoded exactly when it is an instruction, as the word of that. -/
theorem toWord_eq_ok_iff {o : Operation} {w : Nat} :
    o.toWord = .ok w ↔ ∃ i : Instruction, i.toOperation = o ∧ i.toWord = w := by
  simp only [← check_eq_ok_iff]
  unfold toWord
  cases o.check with
  | ok i => simp [Except.map]
  | error cause => simp [Except.map]

theorem toWord_toOperation (i : Instruction) : i.toOperation.toWord = .ok i.toWord :=
  toWord_eq_ok_iff.2 ⟨i, rfl, rfl⟩

theorem toWord_of_error {o : Operation} {cause : Fault} (h : o.check = .error cause) :
    o.toWord = .error cause := by
  rw [toWord, h]
  rfl

/-- A valid operation is encoded by its pattern and the numbers in its fields. -/
theorem toWord_of_valid {o : Operation} (h : o.Valid) :
    o.toWord = .ok (o.opcode.wordWith fun f => (o.get f).toNat) := by
  obtain ⟨i, hi⟩ := check_isOk_iff.2 h
  obtain rfl := check_eq_ok_iff.1 hi
  rw [toWord_toOperation, i.toWord_eq_wordWith]
  rfl

/-- What is not valid is refused, and the codec says why. -/
theorem refused_of_not_valid {o : Operation} (h : ¬o.Valid) :
    ∃ cause, o.check = .error cause ∧ o.toWord = .error cause ∧ cause.fromCodec := by
  cases hcheck : o.check with
  | ok i => exact absurd (check_isOk_iff.1 ⟨i, hcheck⟩) h
  | error cause => exact ⟨cause, rfl, toWord_of_error hcheck, fromCodec_of_check hcheck⟩

/-- A number is decoded to an operation exactly when the operation is encoded as it. -/
theorem decode_eq_some_iff_toWord {w : Int} {o : Operation} :
    (Instruction.decode w).map Instruction.toOperation = some o ↔
      o.toWord.map Int.ofNat = .ok w := by
  have hencode : o.toWord.map Int.ofNat = .ok w ↔ ∃ n : Nat, o.toWord = .ok n ∧ (n : Int) = w := by
    cases o.toWord with
    | ok n => simp [Except.map]
    | error cause => simp [Except.map]
  simp only [hencode, Option.map_eq_some_iff, Instruction.decode_eq_some_iff, toWord_eq_ok_iff]
  constructor
  · rintro ⟨i, hw, ho⟩
    exact ⟨i.toWord, ⟨i, ho, rfl⟩, hw⟩
  · rintro ⟨-, ⟨i, ho, rfl⟩, hw⟩
    exact ⟨i, hw, ho⟩

/-- **The codec is exact**: a number of any size and sign is decoded to an operation
exactly when the operation is encoded as that number.  The check lets pass what is
valid; this is encoded by its pattern and the numbers in its fields, and everything else
is refused with what the check says.  No two operations have one word, and the words of
the opcodes are all that is decoded. -/
theorem codec_exact :
    (∀ (w : Int) (o : Operation),
      (Instruction.decode w).map Instruction.toOperation = some o ↔
        o.toWord.map Int.ofNat = .ok w) ∧
      (∀ o : Operation,
        ((∃ i, o.check = .ok i) ↔ o.Valid) ∧
          (o.Valid → o.toWord = .ok (o.opcode.wordWith fun f => (o.get f).toNat)) ∧
          (¬o.Valid →
            ∃ cause, o.check = .error cause ∧ o.toWord = .error cause ∧ cause.fromCodec)) ∧
      (∀ (o p : Operation) (w : Nat), o.toWord = .ok w → p.toWord = .ok w → o = p) ∧
      ∀ w : Int, (Instruction.decode w).isSome ↔ ∃ op : Opcode, op.IsWord w := by
  refine ⟨fun w o => decode_eq_some_iff_toWord, ?_, ?_, ?_⟩
  · intro o
    exact ⟨check_isOk_iff, toWord_of_valid, refused_of_not_valid⟩
  · intro o p w ho hp
    have hdecode_o := decode_eq_some_iff_toWord.2 (congrArg (Except.map Int.ofNat) ho)
    have hdecode_p := decode_eq_some_iff_toWord.2 (congrArg (Except.map Int.ofNat) hp)
    exact Option.some.inj (hdecode_o.symm.trans hdecode_p)
  · intro w
    rw [exists_isWord_iff, Option.isSome_iff_exists]
    exact exists_congr fun i => Instruction.decode_eq_some_iff

end Operation

end Chip8
