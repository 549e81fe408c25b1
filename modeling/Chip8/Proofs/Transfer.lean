import Chip8.Proofs.Direct

/-!
# Chip8.Proofs.Transfer

What goes between registers and memory.  Instructions write or read one byte after the other from
the index register on, each at an address of which twelve bits count.  As long as there are no more
of them than memory has bytes, such addresses are all different, also where they wrap around the end
of memory.  So no byte is written over by a later one (`get_poked`), and bytes at other addresses
are left alone (`get_poked_of_ne`).

`Stored` and `Restored` say what is left of a machine; `exists_stored_toBcd`,
`exists_stored_storeRegs` and `exists_restored` are the three instructions.  What the first of them
writes are the decimal digits of a register.
-/

namespace Chip8

/-- What is read at an address is decided by the byte in its place. -/
theorem Memory.load_congr {size : Nat} {m after : Memory size} {a : Int}
    (h : ∀ k : Fin size, a = k.val → after.bytes.get k = m.bytes.get k) : after.load a = m.load a := by
  unfold load
  cases hplace : locate size a with
  | error cause => rfl
  | ok k => exact congrArg Except.ok (h k (locate_eq_ok_iff.1 hplace))

namespace Machine

/-! ## bytes that follow one another -/

theorem addressPlace_val (a : Int) : ((addressPlace a).val : Int) = wrap a :=
  Int.toNat_of_nonneg (wrap_nonneg a)

/-- Addresses have one place exactly if they agree in twelve bits. -/
theorem addressPlace_eq_iff {a b : Int} : addressPlace a = addressPlace b ↔ wrap a = wrap b := by
  rw [Fin.ext_iff, ← addressPlace_val, ← addressPlace_val]
  omega

/-- Addresses that are less than the size of memory apart have different places. -/
theorem addressPlace_ne_of_lt (a : Int) {k : Nat} (hpos : 0 < k) (hk : k < 0x1000) :
    addressPlace (a + k) ≠ addressPlace a := by
  rw [Ne, addressPlace_eq_iff]
  unfold wrap
  omega

/-- Going on from the next address. -/
theorem add_one_add (a : Int) (k : Nat) : a + 1 + k = a + (k + 1 : Nat) := by omega

section Poked

variable (bytes : Vector UInt8 0x1000) (a : Int) {block : List UInt8} {j : Fin 0x1000}

/-- The bytes at other places stay. -/
theorem get_poked_of_ne (h : ∀ k < block.length, addressPlace (a + (k : Nat)) ≠ j) :
    (poked bytes a block).get j = bytes.get j := by
  induction block generalizing bytes a with
  | nil => rfl
  | cons b rest ih =>
      have hfirst : addressPlace a ≠ j := by simpa using h 0 (Nat.zero_lt_succ _)
      have hrest : ∀ k < rest.length, addressPlace (a + 1 + (k : Nat)) ≠ j := by
        intro k hk
        rw [add_one_add]
        exact h (k + 1) (Nat.succ_lt_succ hk)
      rw [poked, ih _ _ hrest]
      exact Vector.getElem_set_ne _ _ fun hsame => hfirst (Fin.ext hsame)

/-- Each byte of a block that memory has room for is where it was put. -/
theorem get_poked (hroom : block.length ≤ 0x1000) {k : Nat} (hk : k < block.length)
    (hj : addressPlace (a + k) = j) : (poked bytes a block).get j = block[k] := by
  induction block generalizing bytes a k with
  | nil => exact absurd hk (Nat.not_lt_zero k)
  | cons b rest ih =>
      rw [List.length_cons] at hroom hk
      cases k with
      | zero =>
          obtain rfl : addressPlace a = j := by simpa using hj
          -- The bytes that follow come to lie elsewhere.
          have hrest : ∀ k < rest.length, addressPlace (a + 1 + (k : Nat)) ≠ addressPlace a := by
            intro k hk
            rw [add_one_add]
            exact addressPlace_ne_of_lt a (Nat.succ_pos k) (by omega)
          rw [poked, get_poked_of_ne _ _ hrest]
          exact Vector.getElem_set_self _
      | succ k =>
          rw [← add_one_add] at hj
          rw [poked, ih _ _ (by omega) (by omega) hj, List.getElem_cons_succ]

end Poked

/-! ## the machine after storing -/

/-- What storing some bytes leaves of a machine: they are at the addresses from the index register
on, the bytes at other addresses are as they were, and so is everything else; the program counter
goes on. -/
structure Stored (m after : Machine) (block : List UInt8) : Prop where
  written (k : Nat) (hk : k < block.length) :
    after.memory.load (wrap (m.processor.i + k)) = .ok block[k]
  outside (a : Int) (ha : ∀ k < block.length, wrap (m.processor.i + (k : Nat)) ≠ a) :
    after.memory.load a = m.memory.load a
  rest : after =
    { m with
      memory := { m.memory with bytes := after.memory.bytes }
      processor := m.processor.next }

theorem stored_poked (m : Machine) {block : List UInt8} (hroom : block.length ≤ 0x1000) :
    Stored m (m.withBytes (poked m.memory.bytes m.processor.i block)).next block where
  written k hk := by
    have hread := (m.withBytes (poked m.memory.bytes m.processor.i block)).read_eq
      (m.processor.i + k)
    exact hread.trans (congrArg Except.ok (get_poked _ _ hroom hk rfl))
  outside a ha := by
    refine Memory.load_congr fun j hj => get_poked_of_ne _ _ fun k hk hplace => ha k hk ?_
    rw [hj, ← hplace, addressPlace_val]
  rest := rfl

/-- The hundreds, tens and ones of a byte. -/
def decimalDigits (b : UInt8) : List UInt8 := [b / 100, b / 10 % 10, b % 10]

/-- A byte is made up of its digits. -/
theorem decimalDigits_exact (b : UInt8) :
    ∃ h t o, decimalDigits b = [h, t, o] ∧
      100 * h.toNat + 10 * t.toNat + o.toNat = b.toNat ∧ h ≤ 9 ∧ t ≤ 9 ∧ o ≤ 9 := by
  have hb := b.toNat_lt
  refine ⟨_, _, _, rfl, ?_⟩
  simp only [UInt8.le_iff_toNat_le, UInt8.toNat_div, UInt8.toNat_mod, UInt8.reduceToNat]
  omega

theorem exists_stored_toBcd (m : Machine) (x : Register) :
    ∃ after, m.perform ⟨.toBcd, x⟩ = .ok after ∧ Stored m after (decimalDigits (m.reg x)) := by
  have hroom : (decimalDigits (m.reg x)).length ≤ 0x1000 := by simp [decimalDigits]
  refine ⟨_, ?_, m.stored_poked hroom⟩
  simp only [perform, bcdDigits_toNat, writeAll_eq]
  rfl

/-- The registers V0 to Vx. -/
def registersUpTo (m : Machine) (x : Register) : List UInt8 :=
  m.processor.v.toList.take (x.val + 1)

theorem length_registersUpTo (m : Machine) (x : Register) :
    (m.registersUpTo x).length = x.val + 1 := by
  rw [registersUpTo, List.length_take, Vector.length_toList]
  omega

theorem getElem_registersUpTo (m : Machine) (x k : Register)
    (hk : k.val < (m.registersUpTo x).length) : (m.registersUpTo x)[k.val] = m.reg k := by
  simp only [registersUpTo, List.getElem_take, Vector.getElem_toList]
  rfl

theorem exists_stored_storeRegs (m : Machine) (x : Register) :
    ∃ after, m.perform ⟨.storeRegs, x⟩ = .ok after ∧ Stored m after (m.registersUpTo x) := by
  have hroom : (m.registersUpTo x).length ≤ 0x1000 := by
    rw [length_registersUpTo]
    omega
  refine ⟨_, ?_, m.stored_poked hroom⟩
  simp only [perform, dumpRegisters_eq]
  rfl

/-! ## the machine after restoring -/

section Copied

variable (bytes : Vector UInt8 0x1000) (a : Int) (v : Vector UInt8 16)
  {registers : List Register} {k : Register}

/-- The registers that are not to be restored stay. -/
theorem get_restored_of_not_mem (h : k ∉ registers) :
    (restored bytes a v registers).get k = v.get k := by
  induction registers generalizing v with
  | nil => rfl
  | cons j rest ih =>
      rw [List.mem_cons, not_or] at h
      refine (ih _ h.2).trans ?_
      exact Vector.getElem_set_ne _ _ fun hsame => h.1 (Fin.ext hsame).symm

/-- Each register that is to be restored is copied from its own address. -/
theorem get_restored (h : k ∈ registers) :
    (restored bytes a v registers).get k = bytes.get (addressPlace (a + k.val)) := by
  induction registers generalizing v with
  | nil => exact absurd h List.not_mem_nil
  | cons j rest ih =>
      by_cases hrest : k ∈ rest
      · exact ih _ hrest
      · obtain rfl : k = j := (List.mem_cons.1 h).resolve_right hrest
        exact (get_restored_of_not_mem bytes a _ hrest).trans (Vector.getElem_set_self _)

end Copied

theorem mem_take_finRange (x k : Register) :
    k ∈ (List.finRange 16).take (x.val + 1) ↔ k ≤ x := by
  revert x k
  decide

/-- What restoring the registers V0 to Vx leaves of a machine: they hold what was at the addresses
from the index register on, and everything else is as it was; the program counter goes on. -/
structure Restored (m after : Machine) (x : Register) : Prop where
  loaded (k : Register) (hk : k ≤ x) :
    m.memory.load (wrap (m.processor.i + k.val)) = .ok (after.reg k)
  others (k : Register) (hk : ¬k ≤ x) : after.reg k = m.reg k
  rest : after = { m with processor := { m.processor.next with v := after.processor.v } }

theorem exists_restored (m : Machine) (x : Register) :
    ∃ after, m.perform ⟨.loadRegs, x⟩ = .ok after ∧ Restored m after x := by
  let registers := (List.finRange 16).take (x.val + 1)
  let v := restored m.memory.bytes m.processor.i m.processor.v registers
  have hperform : m.perform ⟨.loadRegs, x⟩ = .ok (m.onProcessor ({ · with v })).next := by
    simp only [perform, restoreRegisters_eq]
    rfl
  refine ⟨_, hperform, ?_, ?_, rfl⟩
  · intro k hk
    have hloaded : v.get k = m.peek (m.processor.i + k.val) :=
      get_restored _ _ _ ((mem_take_finRange x k).2 hk)
    exact (m.read_eq _).trans (congrArg Except.ok hloaded.symm)
  · intro k hk
    exact get_restored_of_not_mem _ _ _ fun hmem => hk ((mem_take_finRange x k).1 hmem)

end Machine

/-! ## decimal digits -/

/-- Any number, also a negative one, is made up of its ones, its tens and the rest. -/
theorem bcdDigits_exact (n : Int) :
    ∃ h t o, bcdDigits n = [h, t, o] ∧ 100 * h + 10 * t + o = n ∧
      (0 ≤ t ∧ t ≤ 9) ∧ (0 ≤ o ∧ o ≤ 9) := by
  refine ⟨n / 100, n / 10 % 10, n % 10, rfl, ?_, ?_, ?_⟩ <;> omega

namespace Emulator

open Machine

/-- **Decimal conversion**: any number is made up of its ones, its tens and the rest.  The
instruction that writes the digits of a register is always carried out.  It leaves them at the three
addresses from the index register on, also where these wrap around the end of memory, every one a
decimal digit; the program counter goes on to the next instruction, and nothing else changes. -/
theorem decimal_digits_stored :
    (∀ n : Int, ∃ h t o, bcdDigits n = [h, t, o] ∧ 100 * h + 10 * t + o = n ∧
      (0 ≤ t ∧ t ≤ 9) ∧ (0 ≤ o ∧ o ≤ 9)) ∧
    ∀ (e : Emulator) (x : Register), ∃ after,
      e.execute (.operation { opcode := .toBcd, x := x.val }) = (.ok true, after) ∧
      (∃ h t o : UInt8, (100 * h.toNat + 10 * t.toNat + o.toNat = (e.reg x).toNat ∧
          h ≤ 9 ∧ t ≤ 9 ∧ o ≤ 9) ∧
        after.memory.load (wrap e.processor.i) = .ok h ∧
        after.memory.load (wrap (e.processor.i + 1)) = .ok t ∧
        after.memory.load (wrap (e.processor.i + 2)) = .ok o) ∧
      (∀ a, a ≠ wrap e.processor.i → a ≠ wrap (e.processor.i + 1) →
        a ≠ wrap (e.processor.i + 2) → after.memory.load a = e.memory.load a) ∧
      after.toMachine =
        { e.toMachine with
          memory := { e.memory with bytes := after.memory.bytes }
          processor := { e.processor with pc := wrap (e.processor.pc + 2) } } := by
  refine ⟨bcdDigits_exact, ?_⟩
  intro e x
  obtain ⟨after, hperform, hwritten, houtside, hrest⟩ := e.toMachine.exists_stored_toBcd x
  obtain ⟨h, t, o, hdigits, hdecimal⟩ := decimalDigits_exact (e.reg x)
  rw [hdigits] at hwritten houtside
  refine ⟨_, execute_of_perform hperform, ⟨h, t, o, hdecimal, ?_, ?_, ?_⟩, ?_, hrest⟩
  · rw [← Int.add_zero e.processor.i]
    exact hwritten 0 (by decide : 0 < 3)
  · exact hwritten 1 (by decide : 1 < 3)
  · exact hwritten 2 (by decide : 2 < 3)
  · intro a hfirst hsecond hthird
    refine houtside a fun k hk => ?_
    match k, hk with
    | 0, _ => simpa using hfirst.symm
    | 1, _ => exact hsecond.symm
    | 2, _ => exact hthird.symm

end Emulator

end Chip8
