import Mathlib.Algebra.Group.Nat.Defs
import Mathlib.Data.List.Forall2
import Chip8.Emulator
import Chip8.Proofs.Codec

/-!
# Chip8.Proofs.Assembly

The assembly text of an operation says which operation it is.  The text of an opcode is fixed but
for the hexadecimal digits of its operands, and an operand that fits in its field has as many
digits as the field is wide, so the opcode alone says where the digits stand (`Opcode.slots`).

* No two opcodes of the table can be written with one text (`Opcode.eq_of_overlap`), as no two of
  them have one word.
* Digits in known places are read back as the numbers that they write (`readHex_hexDigits`), so
  the operands come back once the opcode is known (`Operation.eq_of_mnemonic`).
-/

namespace Chip8

/-! ## hexadecimal numerals -/

/-- The hexadecimal digits, in the order of their values. -/
def hexAlphabet : List Char := "0123456789abcdef".toList

/-- The number that a row of hexadecimal digits writes. -/
def readHex (digits : List Char) : Nat :=
  digits.foldl (fun n c => 16 * n + hexAlphabet.idxOf c) 0

theorem idxOf_digitChar {d : Nat} (h : d < 16) : hexAlphabet.idxOf (Nat.digitChar d) = d := by
  have table : ∀ d : Fin 16, hexAlphabet.idxOf (Nat.digitChar d) = d.val := by decide
  exact table ⟨d, h⟩

theorem digitChar_mem_hexAlphabet {d : Nat} (h : d < 16) : Nat.digitChar d ∈ hexAlphabet := by
  rw [← List.idxOf_lt_length_iff, idxOf_digitChar h]
  exact h

theorem mem_hexAlphabet_of_mem_natHexDigits {n : Nat} {c : Char} (h : c ∈ natHexDigits n) :
    c ∈ hexAlphabet := by
  induction n using Nat.strongRecOn with
  | ind n ih =>
      rw [natHexDigits, Nat.toDigits_eq_if (by decide)] at h
      split at h
      · rename_i hsmall
        obtain rfl := List.mem_singleton.1 h
        exact digitChar_mem_hexAlphabet hsmall
      · rcases List.mem_append.1 h with hfront | hlast
        · exact ih (n / 16) (by omega) hfront
        · obtain rfl := List.mem_singleton.1 hlast
          exact digitChar_mem_hexAlphabet (Nat.mod_lt n (by decide))

theorem readHex_concat (front : List Char) (c : Char) :
    readHex (front ++ [c]) = 16 * readHex front + hexAlphabet.idxOf c := by
  rw [readHex, readHex, List.foldl_append, List.foldl_cons, List.foldl_nil]

theorem readHex_natHexDigits (n : Nat) : readHex (natHexDigits n) = n := by
  induction n using Nat.strongRecOn with
  | ind n ih =>
      rw [natHexDigits, Nat.toDigits_eq_if (by decide)]
      split
      · rename_i hsmall
        rw [readHex, List.foldl_cons, List.foldl_nil, idxOf_digitChar hsmall, Nat.mul_zero,
          Nat.zero_add]
      · have hfront : readHex (Nat.toDigits 16 (n / 16)) = n / 16 := ih (n / 16) (by omega)
        rw [readHex_concat, hfront, idxOf_digitChar (Nat.mod_lt n (by decide)), Nat.div_add_mod]

/-- A numeral is read back, however many zeros are in front of it. -/
theorem readHex_hexDigits (width n : Nat) : readHex (hexDigits width n) = n := by
  have hzeros (k : Nat) :
      (List.replicate k '0').foldl (fun n c => 16 * n + hexAlphabet.idxOf c) 0 = 0 := by
    induction k with
    | zero => rfl
    | succ k ih => exact ih
  have hdigits := readHex_natHexDigits n
  rw [readHex] at hdigits
  change readHex (zeroFill width (natHexDigits n)) = n
  rw [readHex, zeroFill, List.foldl_append, hzeros, hdigits]

theorem mem_hexAlphabet_of_mem_hexDigits {width n : Nat} {c : Char} (h : c ∈ hexDigits width n) :
    c ∈ hexAlphabet := by
  rcases List.mem_append.1 h with hzero | hdigit
  · rw [List.eq_of_mem_replicate hzero]
    decide
  · exact mem_hexAlphabet_of_mem_natHexDigits hdigit

theorem length_hexDigits {width n : Nat} (hwidth : 0 < width) (hn : n < 16 ^ width) :
    (hexDigits width n).length = width := by
  have hfew : (natHexDigits n).length ≤ width :=
    (Nat.length_toDigits_le_iff (by decide) hwidth).2 hn
  change (zeroFill width (natHexDigits n)).length = width
  rw [length_zeroFill, Nat.max_eq_left hfew]

/-! ## where the digits stand -/

/-- The characters of a part of the assembly text, with a hole for every digit. -/
def Piece.slots : Piece → List (Option Char)
  | text s => s.toList.map some
  | operand f => List.replicate f.width none

/-- The characters of an opcode's assembly text, with a hole for every digit. -/
def Opcode.slots (op : Opcode) : List (Option Char) := op.template.flatMap Piece.slots

/-- Whether a character can stand in a slot: it is the one that is fixed there, or a digit. -/
def Fills : Option Char → Char → Prop
  | some fixed, c => c = fixed
  | none, c => c ∈ hexAlphabet

instance : (slot : Option Char) → (c : Char) → Decidable (Fills slot c)
  | some fixed, c => inferInstanceAs (Decidable (c = fixed))
  | none, c => inferInstanceAs (Decidable (c ∈ hexAlphabet))

/-- Whether there is a character that can stand in both of two slots. -/
def Overlap : Option Char → Option Char → Prop
  | some a, slot => Fills slot a
  | none, some b => b ∈ hexAlphabet
  | none, none => True

instance : (s t : Option Char) → Decidable (Overlap s t)
  | some a, slot => inferInstanceAs (Decidable (Fills slot a))
  | none, some b => inferInstanceAs (Decidable (b ∈ hexAlphabet))
  | none, none => inferInstanceAs (Decidable True)

/-- Digits fill holes, one each. -/
theorem fills_holes {text : List Char} {k : Nat} (hlength : text.length = k)
    (hdigits : ∀ c ∈ text, c ∈ hexAlphabet) : List.Forall₂ Fills (List.replicate k none) text := by
  rw [← hlength, ← List.map_const', List.forall₂_map_left_iff, List.forall₂_same]
  exact hdigits

theorem Fills.overlap {s t : Option Char} {c : Char} (hs : Fills s c) (ht : Fills t c) :
    Overlap s t := by
  match s, t with
  | some a, slot =>
      obtain rfl : c = a := hs
      exact ht
  | none, some b =>
      obtain rfl : c = b := ht
      exact hs
  | none, none => trivial

/-- One text fills the slots of two opcodes only if these have room for a common text. -/
theorem overlap_of_fills {slots slots' : List (Option Char)} {text : List Char}
    (h : List.Forall₂ Fills slots text) (h' : List.Forall₂ Fills slots' text) :
    List.Forall₂ Overlap slots slots' := by
  induction h generalizing slots' with
  | nil =>
      cases h'
      exact .nil
  | cons hc _ ih =>
      cases h' with
      | cons hc' hrest' => exact .cons (hc.overlap hc') (ih hrest')

/-- What fills no slot does not occur. -/
theorem not_mem_of_fills {slots : List (Option Char)} {text : List Char} {c : Char}
    (h : List.Forall₂ Fills slots text) (hc : ∀ slot ∈ slots, ¬Fills slot c) : c ∉ text := by
  induction h with
  | nil => exact List.not_mem_nil
  | cons hfirst _ ih =>
      obtain ⟨hslot, hrest⟩ := List.forall_mem_cons.1 hc
      rw [List.mem_cons, not_or]
      exact ⟨fun heq => hslot (heq ▸ hfirst), ih hrest⟩

/-- Two opcodes of the table that have room for a common text are the same. -/
theorem Opcode.eq_of_overlap (p q : Opcode) (h : List.Forall₂ Overlap p.slots q.slots) :
    p = q := by
  have table : ∀ p ∈ all, ∀ q ∈ all, List.Forall₂ Overlap p.slots q.slots → p = q := by
    decide +kernel
  exact table p (mem_all p) q (mem_all q) h

/-! ## texts of operations -/

/-- Fields are as wide as their largest numbers. -/
theorem Field.max_lt (f : Field) : f.max < 16 ^ f.width := by
  cases f <;> decide

/-- The operands of an opcode's text are those of its format. -/
theorem Opcode.operand_mem_template_iff (op : Opcode) (f : Field) :
    .operand f ∈ op.template ↔ f ∈ op.format.fields := by
  cases op <;> cases f <;> decide

/-- Parts that are equally long one by one come back from the whole. -/
theorem eq_of_flatMap_eq {α β : Type} {f g : α → List β} {l : List α}
    (hlength : ∀ a ∈ l, (f a).length = (g a).length) (h : l.flatMap f = l.flatMap g) :
    ∀ a ∈ l, f a = g a := by
  induction l with
  | nil => exact fun a ha => absurd ha List.not_mem_nil
  | cons a rest ih =>
      obtain ⟨hfirst, hrest⟩ := List.forall_mem_cons.1 hlength
      rw [List.flatMap_cons, List.flatMap_cons] at h
      obtain ⟨ha, hothers⟩ := List.append_inj h hfirst
      exact List.forall_mem_cons.2 ⟨ha, ih hrest hothers⟩

namespace Operation

variable {o p : Operation}

theorem toList_mnemonic (o : Operation) :
    o.mnemonic.toList = o.opcode.template.flatMap o.renderPiece :=
  String.toList_ofList

/-- The number in a field that the opcode uses has no more digits than the field is wide. -/
theorem Valid.exists_get_eq (h : o.Valid) {f : Field} (hf : f ∈ o.opcode.format.fields) :
    ∃ n : Nat, o.get f = n ∧ n < 16 ^ f.width := by
  have hfield := h f
  rw [if_pos hf] at hfield
  have hroom := f.max_lt
  exact ⟨(o.get f).toNat, (Int.toNat_of_nonneg hfield.1).symm, by omega⟩

/-- Every part of a text fills its slots: text with itself, and operands with their digits. -/
theorem Valid.fills_renderPiece (h : o.Valid) {piece : Piece} (hpiece : piece ∈ o.opcode.template) :
    List.Forall₂ Fills piece.slots (o.renderPiece piece) := by
  cases piece with
  | text s =>
      rw [Piece.slots, renderPiece, List.forall₂_map_left_iff, List.forall₂_same]
      exact fun c _ => rfl
  | operand f =>
      obtain ⟨n, hn, hroom⟩ := h.exists_get_eq ((o.opcode.operand_mem_template_iff f).1 hpiece)
      have hwidth : 0 < f.width := by cases f <;> decide
      rw [Piece.slots, renderPiece, hn]
      exact fills_holes (length_hexDigits hwidth hroom) fun c => mem_hexAlphabet_of_mem_hexDigits

theorem Valid.fills_mnemonic (h : o.Valid) :
    List.Forall₂ Fills o.opcode.slots o.mnemonic.toList := by
  have hpieces : List.Forall₂ (fun piece piece' => piece = piece' ∧ piece ∈ o.opcode.template)
      o.opcode.template o.opcode.template :=
    List.forall₂_same.2 fun piece hpiece => ⟨rfl, hpiece⟩
  rw [toList_mnemonic]
  refine List.rel_flatMap hpieces ?_
  rintro piece _ ⟨rfl, hpiece⟩
  exact h.fills_renderPiece hpiece

/-- The opcode comes back from the text of a valid operation. -/
theorem opcode_eq_of_mnemonic (ho : o.Valid) (hp : p.Valid) (h : o.mnemonic = p.mnemonic) :
    o.opcode = p.opcode :=
  Opcode.eq_of_overlap _ _ (overlap_of_fills ho.fills_mnemonic (h ▸ hp.fills_mnemonic))

/-- So do the numbers in the fields that the opcode uses. -/
theorem get_eq_of_mnemonic (ho : o.Valid) (hp : p.Valid) (h : o.mnemonic = p.mnemonic) {f : Field}
    (hf : f ∈ o.opcode.format.fields) : o.get f = p.get f := by
  have hop := opcode_eq_of_mnemonic ho hp h
  have hlength : ∀ piece ∈ o.opcode.template,
      (o.renderPiece piece).length = (p.renderPiece piece).length := fun piece hpiece =>
    (ho.fills_renderPiece hpiece).length_eq.symm.trans
      (hp.fills_renderPiece (hop ▸ hpiece)).length_eq
  have htext : o.opcode.template.flatMap o.renderPiece =
      o.opcode.template.flatMap p.renderPiece := by
    have hlists := congrArg String.toList h
    rwa [toList_mnemonic, toList_mnemonic, ← hop] at hlists
  have hdigits : hexDigits f.width (o.get f) = hexDigits f.width (p.get f) :=
    eq_of_flatMap_eq hlength htext (.operand f) ((o.opcode.operand_mem_template_iff f).2 hf)
  obtain ⟨m, hm, -⟩ := ho.exists_get_eq hf
  obtain ⟨n, hn, -⟩ := hp.exists_get_eq (hop ▸ hf)
  rw [hm, hn] at hdigits
  rw [hm, hn, ← readHex_hexDigits f.width m, hdigits, readHex_hexDigits]

/-- Valid operations with one text are the same. -/
theorem eq_of_mnemonic (ho : o.Valid) (hp : p.Valid) (h : o.mnemonic = p.mnemonic) : o = p := by
  have hop := opcode_eq_of_mnemonic ho hp h
  refine ext_get hop fun f => ?_
  by_cases hf : f ∈ o.opcode.format.fields
  · exact get_eq_of_mnemonic ho hp h hf
  · have hofield := ho f
    have hpfield := hp f
    rw [← hop, if_neg hf] at hpfield
    rw [if_neg hf] at hofield
    rw [hofield, hpfield]

/-! ## trace lines -/

/-- There is no colon in the text of a valid operation. -/
theorem Valid.colon_not_mem_mnemonic (h : o.Valid) : ':' ∉ o.mnemonic.toList := by
  have table : ∀ op ∈ Opcode.all, ∀ slot ∈ op.slots, ¬Fills slot ':' := by decide +kernel
  exact not_mem_of_fills h.fills_mnemonic (table o.opcode (Opcode.mem_all _))

/-- What comes after the last colon. -/
def afterColon (text : List Char) : List Char := (text.reverse.takeWhile (· ≠ ':')).reverse

theorem afterColon_append (front : List Char) {rest : List Char} (h : ':' ∉ rest) :
    afterColon (front ++ ':' :: rest) = rest := by
  have hrest : ∀ c ∈ rest.reverse, decide (c ≠ ':') = true := fun c hc =>
    decide_eq_true fun hcolon => h (hcolon ▸ List.mem_reverse.1 hc)
  rw [afterColon, List.reverse_append, List.reverse_cons, List.append_assoc,
    List.takeWhile_append_of_pos hrest, List.singleton_append, List.takeWhile_cons_of_neg (by simp),
    List.append_nil, List.reverse_reverse]

/-- A trace line ends with the text of the instruction, after a colon. -/
theorem exists_toList_traceLine (m : Machine) (pc word : Int) (text : String) :
    ∃ front, (Emulator.traceLine m pc word text).toList = front ++ ':' :: ' ' :: text.toList := by
  unfold Emulator.traceLine
  dsimp only
  rw [String.toList_append, String.toList_append]
  exact ⟨_ ++ " IN".toList, by rw [List.append_assoc, List.append_assoc]; rfl⟩

/-- The text of a valid operation comes back from the line that traces it. -/
theorem Valid.afterColon_trace (h : o.Valid) {e : Emulator} {pc word : Int} {line : String}
    (htrace : e.trace pc word (.operation o) = .ok line) :
    afterColon line.toList = ' ' :: o.mnemonic.toList := by
  obtain rfl := Except.ok.inj htrace
  obtain ⟨front, hfront⟩ := exists_toList_traceLine e.toMachine pc word o.mnemonic
  have hcolon : ':' ∉ ' ' :: o.mnemonic.toList := by
    rw [List.mem_cons, not_or]
    exact ⟨by decide, h.colon_not_mem_mnemonic⟩
  rw [hfront, afterColon_append front hcolon]

/-- **The assembly text is unambiguous**: two operations that the check lets pass are written with
one text only if they are the same, whatever their opcodes.  So two words that are decoded to
instructions with one text are the same word; and a trace line, whatever machine, address and word
it shows besides, is that of no other operation than the one that it was made for. -/
theorem mnemonic_unambiguous :
    (∀ o p : Operation, (∃ i, o.check = .ok i) → (∃ i, p.check = .ok i) →
      o.mnemonic = p.mnemonic → o = p) ∧
    (∀ (w v : Int) (i j : Instruction), Instruction.decode w = some i →
      Instruction.decode v = some j → i.mnemonic = j.mnemonic → w = v) ∧
    ∀ (e f : Emulator) (pc pc' word word' : Int) (o p : Operation) (line : String),
      (∃ i, o.check = .ok i) → (∃ i, p.check = .ok i) →
      e.trace pc word (.operation o) = .ok line → f.trace pc' word' (.operation p) = .ok line →
      o = p := by
  refine ⟨?_, ?_, ?_⟩
  · intro o p ho hp h
    exact eq_of_mnemonic (check_isOk_iff.1 ho) (check_isOk_iff.1 hp) h
  · intro w v i j hi hj h
    have hvalid (i : Instruction) : i.toOperation.Valid := check_isOk_iff.1 ⟨i, check_toOperation i⟩
    have hsame : i.toOperation = j.toOperation := eq_of_mnemonic (hvalid i) (hvalid j) h
    have hchecked := check_toOperation i
    rw [hsame, check_toOperation] at hchecked
    obtain rfl := Except.ok.inj hchecked
    rw [Instruction.decode_eq_some_iff] at hi hj
    exact hi.symm.trans hj
  · intro e f pc pc' word word' o p line ho hp htrace htrace'
    have ho := check_isOk_iff.1 ho
    have hp := check_isOk_iff.1 hp
    have htexts := (ho.afterColon_trace htrace).symm.trans (hp.afterColon_trace htrace')
    exact eq_of_mnemonic ho hp (String.toList_inj.1 (List.cons.inj htexts).2)

/-- A register is loaded from another one or with a number, and the texts differ in their last
operand only. -/
theorem mnemonic_unambiguous_loads :
    let o : Operation := { opcode := .move, x := 1 }
    let p : Operation := { opcode := .load, x := 1 }
    (∃ i, o.check = .ok i) ∧ (∃ i, p.check = .ok i) ∧ o ≠ p ∧ o.mnemonic ≠ p.mnemonic ∧
      ∃ i j, Instruction.decode 0x8100 = some i ∧ Instruction.decode 0x6100 = some j ∧
        i.mnemonic ≠ j.mnemonic := by
  intro o p
  obtain ⟨htexts, hwords, -⟩ := mnemonic_unambiguous
  have ho : ∃ i, o.check = .ok i := check_isOk_iff.2 (by decide)
  have hp : ∃ i, p.check = .ok i := check_isOk_iff.2 (by decide)
  have hne : o ≠ p := by decide
  refine ⟨ho, hp, hne, fun h => hne (htexts o p ho hp h), _, _, rfl, rfl, fun h => ?_⟩
  exact absurd (hwords 0x8100 0x6100 _ _ rfl rfl h) (by decide)

-- Numbers in fields that the opcode does not use are not shown, so the check is needed.
example : mnemonic { opcode := .clear, kk := 5 } = mnemonic { opcode := .clear } := by
  decide +kernel

end Operation

end Chip8
