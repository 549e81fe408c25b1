import Chip8.Fault

/-!
# Chip8.Operation.Check

Which operations are instructions: those with a number in range in every field
that the opcode uses, and zero in every other field.  `Entries.fault?` looks at
the fields in order and reports the first that is wrong;
`Operation.check_eq_ok_iff` says that what `Operation.check` accepts is exactly
what an instruction is as an operation.
-/

namespace Chip8

/-- What is wrong with the value in a field of an opcode, if anything. -/
def Opcode.entryFault? (op : Opcode) (f : Field) (v : Value) : Option Fault :=
  if f ∈ op.format.fields then
    match v.number? with
    | some n => if 0 ≤ n ∧ n ≤ f.max then none else some (.operandRange op f n)
    | none => some (.operandNotNumber v.kind)
  else
    if v.isBlank then none else some (.unusedOperand op f)

/-- What is wrong with the first faulty field of an opcode, if there is one. -/
def Entries.fault? (e : Entries) (op : Opcode) : Option Fault :=
  Field.all.findSome? fun f => op.entryFault? f (e.get f)

theorem Entries.fault?_eq_none_iff {e : Entries} {op : Opcode} :
    e.fault? op = none ↔ ∀ f, op.entryFault? f (e.get f) = none := by
  simp only [fault?, List.findSome?_eq_none_iff]
  exact ⟨fun h f => h f (Field.mem_all f), fun h f _ => h f⟩

namespace Operation

/-- The instruction that an operation is. -/
def check (o : Operation) : Except Fault Instruction :=
  match o.entries.fault? o.opcode with
  | some e => .error e
  | none => .ok ⟨o.opcode, o.opcode.format.ofFields o.get⟩

/-- A field is right when its number is in range, or zero if it is unused. -/
theorem entryFault?_eq_none_iff {o : Operation} {f : Field} :
    o.opcode.entryFault? f (o.entries.get f) = none ↔
      if f ∈ o.opcode.format.fields then 0 ≤ o.get f ∧ o.get f ≤ f.max else o.get f = 0 := by
  rw [Entries.get_entries]
  unfold Opcode.entryFault?
  split
  · by_cases h : 0 ≤ o.get f ∧ o.get f ≤ f.max <;> simp [Value.number?, h]
  · by_cases h : o.get f = 0 <;> simp [Value.isBlank, h]

end Operation

/-! ## Fields and operands -/

namespace Format

/-- The numbers of operands are in range, and zero in the fields that the
format does not have. -/
theorem fieldValue_valid (f : Format) (o : f.Operands) (fld : Field) :
    if fld ∈ f.fields then 0 ≤ f.fieldValue o fld ∧ f.fieldValue o fld ≤ fld.max
    else f.fieldValue o fld = 0 := by
  cases f with
  | plain => cases fld <;> rfl
  | address =>
    have ha : Fin.val (o : Address) < 0x1000 := Fin.isLt _
    cases fld <;> simp [fields, fieldValue, Field.max]
    omega
  | register =>
    have hx : Fin.val (o : Register) < 16 := Fin.isLt _
    cases fld <;> simp [fields, fieldValue, Field.max]
    omega
  | immediate =>
    obtain ⟨x, kk⟩ := o
    have hk := kk.toNat_lt
    cases fld <;> simp [fields, fieldValue, Field.max] <;> omega
  | pair =>
    obtain ⟨x, y⟩ := o
    cases fld <;> simp [fields, fieldValue, Field.max] <;> omega
  | sprite =>
    obtain ⟨x, y, n⟩ := o
    cases fld <;> simp [fields, fieldValue, Field.max] <;> omega

/-- Operands are read back from their numbers. -/
theorem ofFields_fieldValue (f : Format) (o : f.Operands) : f.ofFields (f.fieldValue o) = o := by
  cases f with
  | plain => rfl
  | address =>
    exact Fin.ext (Nat.mod_eq_of_lt (Fin.isLt (o : Address)))
  | register =>
    exact Fin.ext (Nat.mod_eq_of_lt (Fin.isLt (o : Register)))
  | immediate =>
    obtain ⟨x, kk⟩ := o
    exact Prod.ext (Fin.ext (Nat.mod_eq_of_lt x.isLt))
      (UInt8.toNat_inj.1 (Nat.mod_eq_of_lt kk.toNat_lt))
  | pair =>
    obtain ⟨x, y⟩ := o
    exact Prod.ext (Fin.ext (Nat.mod_eq_of_lt x.isLt)) (Fin.ext (Nat.mod_eq_of_lt y.isLt))
  | sprite =>
    obtain ⟨x, y, n⟩ := o
    exact Prod.ext (Fin.ext (Nat.mod_eq_of_lt x.isLt))
      (Prod.ext (Fin.ext (Nat.mod_eq_of_lt y.isLt)) (Fin.ext (Nat.mod_eq_of_lt n.isLt)))

/-- Numbers that are in range come back from the operands that they give. -/
theorem fieldValue_ofFields (f : Format) (get : Field → Int)
    (h : ∀ fld, if fld ∈ f.fields then 0 ≤ get fld ∧ get fld ≤ fld.max else get fld = 0)
    (fld : Field) : f.fieldValue (f.ofFields get) fld = get fld := by
  have hf := h fld
  cases f <;> cases fld <;>
    simp [fields, fieldValue, ofFields, Field.max, UInt8.toNat_ofNat'] at hf ⊢ <;> omega

end Format

namespace Operation

/-- An instruction passes the check as itself. -/
theorem check_toOperation (i : Instruction) : i.toOperation.check = .ok i := by
  have h : i.toOperation.entries.fault? i.toOperation.opcode = none := by
    rw [Entries.fault?_eq_none_iff]
    intro f
    rw [entryFault?_eq_none_iff, Instruction.get_toOperation]
    exact Format.fieldValue_valid _ _ _
  have hget : i.toOperation.get = i.opcode.format.fieldValue i.operands :=
    funext (Instruction.get_toOperation i)
  simp only [check, h, hget]
  exact congrArg (fun o => Except.ok (Instruction.mk i.opcode o))
    (Format.ofFields_fieldValue i.opcode.format i.operands)

/-- What passes the check is what the resulting instruction is as an
operation. -/
theorem toOperation_of_check {o : Operation} {i : Instruction} (h : o.check = .ok i) :
    i.toOperation = o := by
  unfold check at h
  split at h
  · simp at h
  · rename_i hnone
    obtain rfl := Except.ok.inj h
    rw [Entries.fault?_eq_none_iff] at hnone
    apply ext_get
    · rfl
    · intro f
      rw [Instruction.get_toOperation]
      exact Format.fieldValue_ofFields _ _ (fun g => entryFault?_eq_none_iff.1 (hnone g)) f

/-- An operation passes the check exactly when it is an instruction written as
an operation. -/
theorem check_eq_ok_iff {o : Operation} {i : Instruction} :
    o.check = .ok i ↔ i.toOperation = o :=
  ⟨toOperation_of_check, fun h => h ▸ check_toOperation i⟩

/-- The word of an operation. -/
def toWord (o : Operation) : Except Fault Nat := o.check.map Instruction.toWord

end Operation

/-! ## Operands of any kind -/

theorem Opcode.entryFault?_eq_none_iff {op : Opcode} {f : Field} {v : Value} :
    op.entryFault? f v = none ↔ op.Fits f v := by
  unfold entryFault? Fits
  by_cases hf : f ∈ op.format.fields
  · rw [if_pos hf, if_pos hf]
    cases v.number? <;> simp
  · rw [if_neg hf, if_neg hf]
    simp

namespace Misfit

/-- Something is wrong with an operation of which an operand does not fit. -/
theorem isSome_fault? (o : Misfit) : (o.entries.fault? o.opcode).isSome = true := by
  obtain ⟨f, -, hf⟩ := o.not_fits
  rw [Option.isSome_iff_ne_none]
  intro hnone
  exact hf (Opcode.entryFault?_eq_none_iff.1 (Entries.fault?_eq_none_iff.1 hnone f))

/-- What is wrong with its first faulty field. -/
def fault (o : Misfit) : Fault := (o.entries.fault? o.opcode).get o.isSome_fault?

end Misfit

/-- The number that is written in hexadecimal digits, or why none is. -/
def Value.digits (v : Value) : Except Fault Int :=
  match v.number? with
  | some n => .ok n
  | none =>
    match v with
    | single (.text _) | single (.opcode _) => .error .digitsOfText
    | v => .error (.digitsOf v.kind)

/-- The assembly text of an opcode with values for its operands.  The values in
fields that the opcode does not use are not looked at. -/
def Entries.mnemonic (e : Entries) (op : Opcode) : Except Fault String := do
  let used (f : Field) : Except Fault Int :=
    if f ∈ op.format.fields then (e.get f).digits else .ok 0
  let o : Operation :=
    { opcode := op, x := ← used .x, y := ← used .y, n := ← used .n, kk := ← used .kk,
      nnn := ← used .nnn }
  return o.mnemonic

/-! ## Items -/

namespace Item

/-- What is wrong with something that is no operation of the table: this is said
by displaying it, as far as that can be done. -/
def strangerFault (item : Item) : Fault :=
  match item.describe? with
  | some display => .notOperation display
  | none => .numberTooLong

/-- The instruction that was handed over. -/
def check : Item → Except Fault Instruction
  | operation o => o.check
  | misfit o => .error o.fault
  | item => .error item.strangerFault

/-- The word of what was handed over. -/
def toWord (item : Item) : Except Fault Nat := item.check.map Instruction.toWord

/-- The assembly text of what was handed over.  Numbers may be out of range, but
there has to be an opcode, and a number for every operand that it uses. -/
def mnemonic : Item → Except Fault String
  | operation o => .ok o.mnemonic
  | misfit o => o.entries.mnemonic o.opcode
  | misnamed name _ => .error (.unknownOpcode name)
  | item => .error (.noOpcode item)

end Item

end Chip8
