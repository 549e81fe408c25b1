import Chip8.Machine.Perform

/-!
# Chip8.Proofs.Access

What an instruction asks of the parts of the machine is never refused.  Every
address is cut to twelve bits before memory is read or written, every key number
to four, and what is written is a byte, so the checks of memory, keypad and
screen all pass:

* `read_eq`, `write_eq`, `writeAll_eq` -- memory behind wrapped addresses;
* `sprite_eq`, `dumpRegisters_eq`, `restoreRegisters_eq` -- the loops over it;
* `drawSprite_total` -- drawing on a screen that has pixels;
* `random_ok`, `keyIsDown_eq`, `bcdDigits_toNat` -- the remaining checks.

The right-hand sides use total accessors (`peek`, `poked`, `restored`), which later
modules compute with.
-/

namespace Chip8

/-! ## wrapped addresses -/

theorem wrap_nonneg (a : Int) : 0 ≤ wrap a := Int.emod_nonneg a (by decide)

theorem wrap_lt (a : Int) : wrap a < 0x1000 := Int.emod_lt_of_pos a (by decide)

/-- A wrapped address is one that twelve bits hold. -/
theorem wrap_mem_range (a : Int) : 0 ≤ wrap a ∧ wrap a ≤ 0xFFF := by
  have hlo := wrap_nonneg a
  have hhi := wrap_lt a
  omega

theorem byte?_eq_none_iff {n : Int} : byte? n = none ↔ ¬(0 ≤ n ∧ n ≤ 0xFF) := by
  unfold byte?
  split <;> simp_all

theorem wrap_of_range {a : Int} (h : 0 ≤ a ∧ a ≤ 0xFFF) : wrap a = a :=
  Int.emod_eq_of_lt h.1 (by omega)

namespace Machine

/-- The place of an address, of which the lowest twelve bits count. -/
def addressPlace (a : Int) : Fin 0x1000 :=
  ⟨(wrap a).toNat, by
    have hlo := wrap_nonneg a
    have hhi := wrap_lt a
    omega⟩

/-- The byte at an address. -/
def peek (m : Machine) (a : Int) : UInt8 := m.memory.bytes[addressPlace a]

/-- The machine with other bytes in its memory. -/
def withBytes (m : Machine) (bytes : Vector UInt8 0x1000) : Machine :=
  { m with memory := { m.memory with bytes } }

/-- The bytes of memory with some put at an address and those after it. -/
def poked (bytes : Vector UInt8 0x1000) (a : Int) : List UInt8 → Vector UInt8 0x1000
  | [] => bytes
  | b :: rest => poked (bytes.set (addressPlace a) b) (a + 1) rest

theorem locate_wrap (a : Int) : Memory.locate 0x1000 (wrap a) = .ok (addressPlace a) := by
  rw [Memory.locate_eq_ok_iff]
  have hlo := wrap_nonneg a
  simp only [addressPlace]
  omega

/-! ## reading and writing memory -/

/-- Reading is never refused. -/
theorem read_eq (m : Machine) (a : Int) : m.read a = .ok (m.peek a) := by
  unfold read Memory.load
  rw [locate_wrap]
  rfl

/-- Writing a byte is never refused. -/
theorem write_eq (m : Machine) (a : Int) (b : UInt8) :
    m.write a b.toNat = .ok (m.withBytes (m.memory.bytes.set (addressPlace a) b)) := by
  unfold write Memory.store
  rw [locate_wrap, byte?_toNat]
  rfl

/-- Writing bytes one after the other is never refused, and changes the bytes of
memory alone. -/
theorem writeAll_eq (m : Machine) (a : Int) (bytes : List UInt8) :
    m.writeAll a (bytes.map fun b => (b.toNat : Int)) =
      .ok (m.withBytes (poked m.memory.bytes a bytes)) := by
  induction bytes generalizing m a with
  | nil => rfl
  | cons b rest ih =>
      rw [List.map_cons, writeAll, write_eq]
      exact ih (m.withBytes (m.memory.bytes.set (addressPlace a) b)) (a + 1)

/-! ## the loops of instructions -/

/-- The bytes from the index register on. -/
def rowsAtIndex (m : Machine) (n : Nibble) : List UInt8 :=
  (List.range n.val).map fun (r : Nat) => m.peek (m.processor.i + r)

/-- A sprite is the bytes from the index register on. -/
theorem sprite_eq (m : Machine) (n : Nibble) : m.sprite n = .ok (m.rowsAtIndex n) := by
  unfold sprite
  simp only [read_eq]
  exact List.mapM_pure

/-- What is drawn is the sprite that the index register points at. -/
theorem drawAtIndex_eq {m : Machine} {x y : Register} {n : Nibble} {hit : Bool}
    {screen : Screen 64 32}
    (h : m.screen.drawSprite (m.reg x).toNat (m.reg y).toNat (m.rowsAtIndex n) =
      .ok (hit, screen)) :
    m.drawAtIndex x y n = .ok { m with screen, processor := m.processor.setFlag hit } := by
  rw [drawAtIndex, sprite_eq]
  change (m.screen.drawSprite _ _ (m.rowsAtIndex n) >>= fun r =>
    pure { m with screen := r.2, processor := m.processor.setFlag r.1 }) = _
  rw [h]
  rfl

theorem dumpRegisters_eq (m : Machine) (x : Register) :
    m.dumpRegisters x =
      .ok (m.withBytes
        (poked m.memory.bytes m.processor.i (m.processor.v.toList.take (x.val + 1)))) :=
  writeAll_eq m _ _

/-- Some registers copied from the bytes of memory at an address and after it. -/
def restored (bytes : Vector UInt8 0x1000) (a : Int) (v : Vector UInt8 16) :
    List Register → Vector UInt8 16
  | [] => v
  | k :: rest => restored bytes a (v.set k bytes[addressPlace (a + k.val)]) rest

/-- Copying registers from memory is never refused and changes registers
alone. -/
theorem restoreEach_eq (m : Machine) (v : Vector UInt8 16) (registers : List Register) :
    (m.onProcessor ({ · with v })).restoreEach registers =
      .ok (m.onProcessor
        ({ · with v := restored m.memory.bytes m.processor.i v registers })) := by
  induction registers generalizing v with
  | nil => rfl
  | cons k rest ih =>
      rw [restoreEach, read_eq]
      exact ih (v.set k (m.peek (m.processor.i + k.val)))

theorem restoreRegisters_eq (m : Machine) (x : Register) :
    m.restoreRegisters x =
      .ok (m.onProcessor ({ · with
        v := restored m.memory.bytes m.processor.i m.processor.v
          ((List.finRange 16).take (x.val + 1)) })) :=
  restoreEach_eq m m.processor.v _

/-! ## keys and digits -/

/-- Looking at a key is never refused. -/
theorem keyIsDown_eq (m : Machine) (x : Register) :
    m.keyIsDown x = .ok m.keypad.down[(m.reg x).toNat % 16] := by
  have h : (0 : Int) ≤ ((m.reg x).toNat % 16 : Nat) ∧ (((m.reg x).toNat % 16 : Nat) : Int) < 16 := by
    omega
  unfold keyIsDown Keypad.isDown Keypad.key
  rw [dif_pos h]
  rfl

/-- The decimal digits of a byte are bytes. -/
theorem bcdDigits_toNat (b : UInt8) :
    bcdDigits b.toNat =
      [b / 100, b / 10 % 10, b % 10].map fun d => (d.toNat : Int) := by
  simp [bcdDigits]

end Machine

/-! ## drawing -/

namespace Screen

variable {w h : Int}

theorem xorPixel_total (s : Screen w h) (hpos : 0 < w * h) (x y : Int) :
    ∃ lit t, s.xorPixel x y = .ok (lit, t) := by
  unfold xorPixel locate
  rw [dif_pos hpos]
  exact ⟨_, _, rfl⟩

/-- Turning pixels around on a screen that has pixels is never refused. -/
theorem xorPixels_total (s : Screen w h) (hpos : 0 < w * h) (points : List (Int × Int)) :
    ∃ hit t, s.xorPixels points = .ok (hit, t) := by
  induction points generalizing s with
  | nil => exact ⟨false, s, rfl⟩
  | cons p rest ih =>
      obtain ⟨x, y⟩ := p
      obtain ⟨lit, t, ht⟩ := xorPixel_total s hpos x y
      obtain ⟨hit, u, hu⟩ := ih t
      refine ⟨lit || hit, u, ?_⟩
      rw [xorPixels, ht]
      change (t.xorPixels rest >>= fun r => pure (lit || r.1, r.2)) = _
      rw [hu]
      rfl

theorem drawSprite_total (s : Screen w h) (hpos : 0 < w * h) (x y : Int) (rows : List UInt8) :
    ∃ hit t, s.drawSprite x y rows = .ok (hit, t) :=
  xorPixels_total s hpos _

end Screen

/-! ## random numbers -/

/-- The AND with a byte is a byte, whatever the other number is. -/
theorem andBits_byte (n : Int) (mask : UInt8) :
    0 ≤ andBits n mask.toNat ∧ andBits n mask.toNat ≤ 0xFF := by
  have hmask := mask.toNat_lt
  cases n with
  | ofNat a =>
      have hle : a &&& mask.toNat ≤ mask.toNat := Nat.and_le_right
      change 0 ≤ ((a &&& mask.toNat : Nat) : Int) ∧ ((a &&& mask.toNat : Nat) : Int) ≤ 0xFF
      omega
  | negSucc a =>
      change 0 ≤ ((mask.toNat - (a &&& mask.toNat) : Nat) : Int) ∧
        ((mask.toNat - (a &&& mask.toNat) : Nat) : Int) ≤ 0xFF
      omega

namespace Processor

/-- A masked random number fits in a register, whatever was drawn. -/
theorem random_ok (p : Processor) (x : Register) (mask : UInt8) :
    ∃ b, p.random x mask.toNat = (.ok (), { p with rng := p.rng.advance }.setV x b) := by
  unfold random
  rw [byte?, if_pos (andBits_byte p.rng.next mask)]
  exact ⟨_, rfl⟩

end Processor

end Chip8
