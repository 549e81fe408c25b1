import Chip8.Processor

/-!
# Chip8.Proofs.Arithmetic

What calculations with registers come to.  The processor calculates with bytes and writes the flag
after the result.  `Calculation.value` and `Calculation.flag?` say in plain integers what to expect,
of the numbers in the two registers before; `Processor.Written` says where the two go.  Where the
result goes to the flag register, the flag is what remains.

The lemmas `written_…` compare the two, one calculation each, for every choice of registers: it may
be the same register twice, and it may be the flag register.  Registers are asked for by number, and
`calculated_of_missing` is about numbers that no register has.
-/

namespace Chip8

/-- A calculation with a register, in which a number or another register may take part. -/
inductive Calculation
  | load (n : Int)
  | addImm (n : Int)
  | move (y : Int)
  | or (y : Int)
  | and (y : Int)
  | xor (y : Int)
  | addReg (y : Int)
  | subReg (y : Int)
  | subRegRev (y : Int)
  | shiftRight
  | shiftLeft

namespace Calculation

/-- The number of the other register, if there is one. -/
def other? : Calculation → Option Int
  | load _ | addImm _ | shiftRight | shiftLeft => none
  | move y | or y | and y | xor y | addReg y | subReg y | subRegRev y => some y

/-- What a calculation makes of the numbers `a` in its register and `b` in the other one. -/
def value (a b : Nat) : Calculation → Int
  | load n => n % 256
  | addImm n => (a + n) % 256
  | move _ => b
  | or _ => (a ||| b : Nat)
  | and _ => (a &&& b : Nat)
  | xor _ => (a ^^^ b : Nat)
  | addReg _ => (a + b) % 256
  | subReg _ => (a - b) % 256
  | subRegRev _ => (b - a) % 256
  | shiftRight => a / 2
  | shiftLeft => 2 * a % 256

/-- The flag that a calculation gives, if it gives one. -/
def flag? (a b : Nat) : Calculation → Option Int
  | addReg _ => some (if 255 < a + b then 1 else 0)
  | subReg _ => some (if b ≤ a then 1 else 0)
  | subRegRev _ => some (if a ≤ b then 1 else 0)
  | shiftRight => some (a % 2)
  | shiftLeft => some (a / 128)
  | _ => none

end Calculation

/-! ## bytes as integers -/

theorem toNat_lowByte_eq (n : Int) : ((lowByte n).toNat : Int) = n % 256 := by
  rw [lowByte, UInt8.toNat_ofNat']
  omega

theorem toNat_add_eq (a b : UInt8) : ((a + b).toNat : Int) = (a.toNat + b.toNat) % 256 := by
  rw [UInt8.toNat_add]
  omega

theorem toNat_sub_eq (a b : UInt8) : ((a - b).toNat : Int) = (a.toNat - b.toNat) % 256 := by
  have ha := a.toNat_lt
  have hb := b.toNat_lt
  rw [UInt8.toNat_sub]
  omega

theorem toNat_shiftRight_eq (a : UInt8) : ((a >>> 1).toNat : Int) = a.toNat / 2 := by
  simp [UInt8.toNat_shiftRight, Nat.shiftRight_eq_div_pow]

theorem toNat_shiftLeft_eq (a : UInt8) : ((a <<< 1).toNat : Int) = 2 * a.toNat % 256 := by
  have hdouble : a.toNat <<< 1 = 2 * a.toNat := by rw [Nat.shiftLeft_eq, Nat.mul_comm, Nat.pow_one]
  rw [UInt8.toNat_shiftLeft]
  change ((a.toNat <<< 1 % 256 : Nat) : Int) = _
  rw [hdouble]
  omega

/-- The bits that shifts push out, as integers. -/
theorem lowestBit_eq (a : UInt8) : (if a.toNat.testBit 0 then 1 else 0 : Int) = a.toNat % 2 := by
  simp only [Nat.testBit_zero, decide_eq_true_eq]
  omega

theorem highestBit_eq (a : UInt8) :
    (if a.toNat.testBit 7 then 1 else 0 : Int) = a.toNat / 128 := by
  have ha := a.toNat_lt
  simp only [Nat.testBit_eq_decide_div_mod_eq, decide_eq_true_eq]
  omega

namespace Processor

/-! ## writing registers -/

theorem v_setV_self (p : Processor) (x : Register) (b : UInt8) : (p.setV x b).v.get x = b :=
  Vector.getElem_set_self _

theorem v_setV_of_ne (p : Processor) {x k : Register} (b : UInt8) (h : k ≠ x) :
    (p.setV x b).v.get k = p.v.get k :=
  Vector.getElem_set_ne x.isLt k.isLt fun hsame => h (Fin.ext hsame).symm

/-- A flag that is set after a register leaves the others alone. -/
theorem v_setFlag_of_not_mem (p : Processor) {x k : Register} (b : UInt8) {carry : Bool}
    (h : k ∉ [x, flagRegister]) : ((p.setV x b).setFlag carry).v.get k = p.v.get k := by
  simp only [List.mem_cons, List.not_mem_nil, or_false, not_or] at h
  rw [setFlag, v_setV_of_ne _ _ h.2, v_setV_of_ne _ _ h.1]

/-- The registers after a calculation in register `x`: the result and the flag are where they
belong, the flag having come last, and everything else is as it was. -/
structure Written (p after : Processor) (x : Register) (value : Int) (flag? : Option Int) :
    Prop where
  flag : ∀ flag ∈ flag?, ((after.v.get flagRegister).toNat : Int) = flag
  value (h : flag? = none ∨ x ≠ flagRegister) : ((after.v.get x).toNat : Int) = value
  others (k : Register) (hk : k ≠ x) (h : flag? = none ∨ k ≠ flagRegister) :
    after.v.get k = p.v.get k
  rest : after = { p with v := after.v }

section Written

variable {p : Processor} {x : Register} {b : UInt8} {value : Int}

/-- A result without a flag. -/
theorem written_setV (hvalue : (b.toNat : Int) = value) : Written p (p.setV x b) x value none where
  flag := nofun
  value _ := by rw [v_setV_self, hvalue]
  others _ hk _ := p.v_setV_of_ne b hk
  rest := rfl

/-- A result, and then a flag. -/
theorem written_setFlag {carry : Bool} {flag : Int} (hvalue : (b.toNat : Int) = value)
    (hflag : (if carry then 1 else 0) = flag) :
    Written p ((p.setV x b).setFlag carry) x value (some flag) where
  flag := by
    rintro _ ⟨⟩
    rw [setFlag, v_setV_self, ← hflag]
    cases carry <;> rfl
  value h := by
    have hx : x ≠ flagRegister := h.resolve_left nofun
    rw [setFlag, v_setV_of_ne _ _ hx, v_setV_self, hvalue]
  others k hk h := by
    have hflagRegister : k ≠ flagRegister := h.resolve_left nofun
    exact p.v_setFlag_of_not_mem b (by simp [hk, hflagRegister])
  rest := rfl

end Written

/-! ## one lemma per calculation -/

section Calculations

variable (p : Processor) (x y : Register)

theorem written_load (n : Int) : Written p (p.load x n) x (n % 256) none :=
  written_setV (toNat_lowByte_eq n)

theorem written_addImm (n : Int) :
    Written p (p.addImm x n) x (((p.v.get x).toNat + n) % 256) none :=
  written_setV (toNat_lowByte_eq _)

theorem written_move : Written p (p.move x y) x (p.v.get y).toNat none := written_setV rfl

theorem written_or :
    Written p (p.or x y) x ((p.v.get x).toNat ||| (p.v.get y).toNat : Nat) none :=
  written_setV (congrArg Int.ofNat (UInt8.toNat_or _ _))

theorem written_and :
    Written p (p.and x y) x ((p.v.get x).toNat &&& (p.v.get y).toNat : Nat) none :=
  written_setV (congrArg Int.ofNat (UInt8.toNat_and _ _))

theorem written_xor :
    Written p (p.xor x y) x ((p.v.get x).toNat ^^^ (p.v.get y).toNat : Nat) none :=
  written_setV (congrArg Int.ofNat (UInt8.toNat_xor _ _))

theorem written_addReg :
    Written p (p.addReg x y) x (((p.v.get x).toNat + (p.v.get y).toNat) % 256)
      (some (if 255 < (p.v.get x).toNat + (p.v.get y).toNat then 1 else 0)) :=
  written_setFlag (toNat_add_eq _ _) (by simp only [decide_eq_true_eq]; rfl)

theorem written_subReg :
    Written p (p.subReg x y) x (((p.v.get x).toNat - (p.v.get y).toNat) % 256)
      (some (if (p.v.get y).toNat ≤ (p.v.get x).toNat then 1 else 0)) :=
  written_setFlag (toNat_sub_eq _ _) (by simp only [decide_eq_true_eq, UInt8.le_iff_toNat_le]; rfl)

theorem written_subRegRev :
    Written p (p.subRegRev x y) x (((p.v.get y).toNat - (p.v.get x).toNat) % 256)
      (some (if (p.v.get x).toNat ≤ (p.v.get y).toNat then 1 else 0)) :=
  written_setFlag (toNat_sub_eq _ _) (by simp only [decide_eq_true_eq, UInt8.le_iff_toNat_le]; rfl)

theorem written_shiftRight :
    Written p (p.shiftRight x) x ((p.v.get x).toNat / 2) (some ((p.v.get x).toNat % 2)) :=
  written_setFlag (toNat_shiftRight_eq _) (lowestBit_eq _)

theorem written_shiftLeft :
    Written p (p.shiftLeft x) x (2 * (p.v.get x).toNat % 256) (some ((p.v.get x).toNat / 128)) :=
  written_setFlag (toNat_shiftLeft_eq _) (highestBit_eq _)

end Calculations

/-! ## calculations with registers by number -/

/-- The processor after a calculation with the register of a given number. -/
def calculated (p : Processor) (x : Int) : Calculation → Except Fault Processor
  | .load n => p.onRegister x (·.load · n)
  | .addImm n => p.onRegister x (·.addImm · n)
  | .move y => p.onRegisters x y move
  | .or y => p.onRegisters x y or
  | .and y => p.onRegisters x y and
  | .xor y => p.onRegisters x y xor
  | .addReg y => p.onRegisters x y addReg
  | .subReg y => p.onRegisters x y subReg
  | .subRegRev y => p.onRegisters x y subRegRev
  | .shiftRight => p.onRegister x shiftRight
  | .shiftLeft => p.onRegister x shiftLeft

/-- The answer to whoever asks for a calculation, and the processor after it.  A calculation that is
refused leaves the processor as it is. -/
def calculate (p : Processor) (x : Int) (c : Calculation) : Except Fault Unit × Processor :=
  match p.calculated x c with
  | .ok after => (.ok (), after)
  | .error cause => (.error cause, p)

/-- Whether a register has this number. -/
def IsRegister (index : Int) : Prop := 0 ≤ index ∧ index < 16

instance (index : Int) : Decidable (IsRegister index) := inferInstanceAs (Decidable (_ ∧ _))

theorem register_val (x : Register) : register x.val = .ok x := by
  have h : (0 : Int) ≤ x.val ∧ (x.val : Int) < 16 := by omega
  rw [register, dif_pos h]
  rfl

theorem register_of_missing {index : Int} (h : ¬IsRegister index) :
    register index = .error (.noSuchRegister index) := dif_neg h

section ByNumber

variable {α : Type} (p : Processor)

theorem onRegister_val (x : Register) (f : Processor → Register → α) :
    p.onRegister x.val f = .ok (f p x) := by
  rw [onRegister, register_val]
  rfl

theorem onRegisters_val (x y : Register) (f : Processor → Register → Register → α) :
    p.onRegisters x.val y.val f = .ok (f p x y) := by
  rw [onRegisters, register_val, register_val]
  rfl

theorem onRegister_of_missing {x : Int} (hx : ¬IsRegister x) (f : Processor → Register → α) :
    p.onRegister x f = .error (.noSuchRegister x) := by
  rw [onRegister, register_of_missing hx]
  rfl

/-- The first number that no register has is reported. -/
theorem onRegisters_of_missing {x y n : Int} (h : [x, y].find? (¬IsRegister ·) = some n)
    (f : Processor → Register → Register → α) :
    p.onRegisters x y f = .error (.noSuchRegister n) := by
  by_cases hx : IsRegister x
  · have hy : ¬IsRegister y ∧ y = n := by simpa [hx] using h
    obtain ⟨hmissing, rfl⟩ := hy
    have hfound : register x = .ok ⟨x.toNat, toNat_lt_sixteen hx⟩ := dif_pos hx
    rw [onRegisters, hfound, register_of_missing hmissing]
    rfl
  · obtain rfl : x = n := by simpa [hx] using h
    rw [onRegisters, register_of_missing hx]
    rfl

end ByNumber

/-- Calculations with registers that there are. -/
theorem calculated_of_registers (p : Processor) (c : Calculation) {x y : Register}
    (hy : ∀ n ∈ c.other?, n = y.val) :
    ∃ after, p.calculated x.val c = .ok after ∧
      Written p after x (c.value (p.v.get x).toNat (p.v.get y).toNat)
        (c.flag? (p.v.get x).toNat (p.v.get y).toNat) := by
  cases c with
  | load n => exact ⟨_, p.onRegister_val x (·.load · n), p.written_load x n⟩
  | addImm n => exact ⟨_, p.onRegister_val x (·.addImm · n), p.written_addImm x n⟩
  | shiftRight => exact ⟨_, p.onRegister_val x _, p.written_shiftRight x⟩
  | shiftLeft => exact ⟨_, p.onRegister_val x _, p.written_shiftLeft x⟩
  | move n =>
    obtain rfl := hy n rfl
    exact ⟨_, p.onRegisters_val x y _, p.written_move x y⟩
  | or n =>
    obtain rfl := hy n rfl
    exact ⟨_, p.onRegisters_val x y _, p.written_or x y⟩
  | and n =>
    obtain rfl := hy n rfl
    exact ⟨_, p.onRegisters_val x y _, p.written_and x y⟩
  | xor n =>
    obtain rfl := hy n rfl
    exact ⟨_, p.onRegisters_val x y _, p.written_xor x y⟩
  | addReg n =>
    obtain rfl := hy n rfl
    exact ⟨_, p.onRegisters_val x y _, p.written_addReg x y⟩
  | subReg n =>
    obtain rfl := hy n rfl
    exact ⟨_, p.onRegisters_val x y _, p.written_subReg x y⟩
  | subRegRev n =>
    obtain rfl := hy n rfl
    exact ⟨_, p.onRegisters_val x y _, p.written_subRegRev x y⟩

/-- Calculations with registers of which one is missing. -/
theorem calculated_of_missing (p : Processor) (c : Calculation) {x n : Int}
    (h : (x :: c.other?.toList).find? (¬IsRegister ·) = some n) :
    p.calculated x c = .error (.noSuchRegister n) := by
  have hone (hother : c.other? = none) : ¬IsRegister x ∧ x = n := by simpa [hother] using h
  cases c with
  | load k =>
    obtain ⟨hmissing, rfl⟩ := hone rfl
    exact p.onRegister_of_missing hmissing (·.load · k)
  | addImm k =>
    obtain ⟨hmissing, rfl⟩ := hone rfl
    exact p.onRegister_of_missing hmissing (·.addImm · k)
  | shiftRight | shiftLeft =>
    obtain ⟨hmissing, rfl⟩ := hone rfl
    exact p.onRegister_of_missing hmissing _
  | _ => exact p.onRegisters_of_missing h _

/-- **Register arithmetic**: a calculation with registers that there are is made, whichever they
are.  Its register then holds the value of the calculation and the flag register its flag, if it
gives one, each of the numbers that the registers held before; the flag takes precedence, and nothing
else changes.  A calculation with a register that does not exist is refused and changes nothing. -/
theorem calculation_exact (p : Processor) (c : Calculation) :
    (∀ x y : Register, (∀ n ∈ c.other?, n = y.val) →
      ∃ after, p.calculate x.val c = (.ok (), after) ∧
        Written p after x (c.value (p.v.get x).toNat (p.v.get y).toNat)
          (c.flag? (p.v.get x).toNat (p.v.get y).toNat)) ∧
      ∀ x n : Int, (x :: c.other?.toList).find? (¬IsRegister ·) = some n →
        p.calculate x c = (.error (.noSuchRegister n), p) := by
  constructor
  · intro x y hy
    obtain ⟨after, hafter, hwritten⟩ := p.calculated_of_registers c hy
    exact ⟨after, by rw [calculate, hafter], hwritten⟩
  · intro x n hmissing
    rw [calculate, p.calculated_of_missing c hmissing]

/-- Doubling the flag register leaves the carry in it; there is no register after it. -/
theorem calculation_exact_doubled :
    let p := (idle (.ofLimit 0) (.cycle [])).setV flagRegister 0x90
    (∃ after, p.calculate 0xF (.addReg 0xF) = (.ok (), after) ∧
      ((after.v.get flagRegister).toNat : Int) = 1) ∧
    p.calculate 0x10 (.addReg 0xF) = (.error (.noSuchRegister 0x10), p) := by
  intro p
  obtain ⟨hmade, hrefused⟩ := p.calculation_exact (.addReg 0xF)
  obtain ⟨after, hafter, hwritten⟩ := hmade 0xF 0xF (by rintro _ ⟨⟩; rfl)
  exact ⟨⟨after, hafter, hwritten.flag 1 (by decide)⟩, hrefused 0x10 0x10 (by decide)⟩

end Processor

end Chip8
