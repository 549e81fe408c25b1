import Chip8.Emulator
import Chip8.Proofs.Programs

/-!
# Chip8.Proofs.Loading

What is loaded is what is executed.  Loading passes through four layers: operations are
encoded as words, words are split into bytes, the bytes are written as one block, and two
of them are fetched at a time.  `Loaded` says what a load leaves of the machine;
`loaded_loadProgram` follows the bytes into memory and back, `loaded_bytes` the words, and
`loaded_loadOperations` and `loaded_loadWords` what is handed over.
-/

namespace Chip8

/-! ## blocks of memory -/

namespace Memory

variable {size : Nat}

/-- A block that lies within memory has the place of its first address. -/
theorem locateBlock_of_fits {a : Int} {count : Nat} (hpos : 0 < count)
    (h : 0 ≤ a ∧ a + count ≤ size) : locateBlock size a count = .ok ⟨a.toNat, by omega⟩ := by
  -- Only the two ends of the block are located.
  have hfirst : locate size a = .ok ⟨a.toNat, by omega⟩ :=
    locate_eq_ok_iff.2 (Int.toNat_of_nonneg h.1).symm
  have hlast : locate size (a + count - 1) = .ok ⟨(a + count - 1).toNat, by omega⟩ :=
    locate_eq_ok_iff.2 (by simp only; omega)
  rw [locateBlock, hfirst]
  change (locate size (a + count - 1) >>= _) = _
  rw [hlast]
  rfl

/-- A block that lies within memory is written there. -/
theorem storeBytes_of_fits (m : Memory size) {a : Int} {block : List UInt8} (ha : 0 ≤ a)
    (hfits : a + block.length ≤ size) :
    m.storeBytes a block = .ok { m with bytes := overwrite m.bytes a.toNat block } := by
  cases block with
  | nil => rfl
  | cons b rest =>
      have hpos : 0 < (b :: rest).length := List.length_pos_iff.2 (List.cons_ne_nil b rest)
      rw [storeBytes, locateBlock_of_fits hpos ⟨ha, hfits⟩]
      rfl

/-- Every part of a block is read back from where it was written. -/
theorem loadMany_overwrite (m : Memory size) {a : Int} {block : List UInt8} {j n : Nat}
    (ha : 0 ≤ a) (hfits : a + block.length ≤ size) (hpart : j + n ≤ block.length) :
    Memory.loadMany { m with bytes := overwrite m.bytes a.toNat block } (a + j) n =
      some ((block.drop j).take n) := by
  have hrange : 0 ≤ a + j ∧ (0 : Int) ≤ n ∧ a + j + n ≤ size := by omega
  rw [loadMany, dif_pos hrange]
  congr 1
  apply List.ext_getElem
  · simp only [List.length_ofFn, List.length_take, List.length_drop]
    omega
  · intro k hk _
    have hkn : k < n := by simpa using hk
    have hplace : (a + j).toNat + k - a.toNat = j + k := by omega
    simp only [List.getElem_ofFn, List.getElem_take, List.getElem_drop]
    change (overwrite m.bytes a.toNat block)[(a + j).toNat + k] = _
    rw [getElem_overwrite, dif_pos (by omega)]
    simp only [hplace]

end Memory

/-! ## the machine after loading -/

namespace Machine

/-- The machine with its program counter at an address. -/
def withPc (m : Machine) (a : Int) : Machine := { m with processor := { m.processor with pc := a } }

/-- What loading so many bytes leaves of a machine: the program counter points at the
program, the bytes outside the program are as they were, and so is all that is not in
memory. -/
structure Loaded (m after : Machine) (count : Nat) : Prop where
  pc : after.processor.pc = m.programStart
  outside (k : Fin 0x1000) (h : ¬(m.programStart ≤ k.val ∧ k.val < m.programStart + count)) :
    after.memory.bytes[k] = m.memory.bytes[k]
  rest : after =
    { m with
      memory := { m.memory with bytes := after.memory.bytes }
      processor := { m.processor with pc := after.processor.pc } }

/-- The word whose bytes are at the program counter is fetched. -/
theorem fetch_of_loadMany {m : Machine} {a : Int} {w : Nat} (hw : w < 0x10000)
    (h : m.memory.loadMany a 2 = some (splitWord w)) : (m.withPc a).fetch = some w := by
  have hbytes : (m.withPc a).memory.loadMany (m.withPc a).processor.pc 2 = some (splitWord w) := h
  rw [fetch, hbytes]
  exact congrArg some (joinBytes_splitWord hw)

end Machine

namespace Emulator

open Machine

/-- A program that fits overwrites a part of memory, and the program counter is set. -/
theorem loadProgram_of_fits {e : Emulator} (hstart : 0 ≤ e.programStart) {data : List UInt8}
    (hfits : e.programStart + data.length ≤ 0x1000) :
    ∃ after, e.loadProgram data = .ok after ∧ after.toMachine =
      { e.toMachine.withPc e.programStart with
        memory :=
          { e.memory with
            bytes := Memory.overwrite e.memory.bytes e.programStart.toNat data } } := by
  rw [loadProgram, if_neg (Int.not_lt.2 hfits), e.memory.storeBytes_of_fits hstart hfits]
  exact ⟨_, rfl, rfl⟩

/-- A program that fits is loaded, and every part of it is read back from where it was put. -/
theorem loaded_loadProgram {e : Emulator} (hstart : 0 ≤ e.programStart) {data : List UInt8}
    (hfits : e.programStart + data.length ≤ 0x1000) :
    ∃ after, e.loadProgram data = .ok after ∧
      Loaded e.toMachine after.toMachine data.length ∧
      ∀ j n : Nat, j + n ≤ data.length →
        after.memory.loadMany (e.programStart + j) n = some ((data.drop j).take n) := by
  obtain ⟨after, hload, hafter⟩ := loadProgram_of_fits hstart hfits
  refine ⟨after, hload, ?_⟩
  rw [hafter]
  refine ⟨⟨rfl, ?_, rfl⟩, ?_⟩
  · intro k hk
    change (Memory.overwrite e.memory.bytes e.programStart.toNat data)[k.val] = _
    rw [Memory.getElem_overwrite, dif_neg (by omega)]
    rfl
  · intro j n hpart
    exact e.memory.loadMany_overwrite hstart hfits hpart

/-- The bytes of words that fit are loaded, and each word is fetched from where it was put. -/
theorem loaded_bytes {e : Emulator} (hstart : 0 ≤ e.programStart) {words : List Nat}
    (hwords : ∀ w ∈ words, w < 0x10000) (hfits : e.programStart + 2 * words.length ≤ 0x1000) :
    ∃ after, e.loadProgram (Program.bytes words) = .ok after ∧
      Loaded e.toMachine after.toMachine (2 * words.length) ∧
      ∀ (k : Nat) (hk : k < words.length),
        (after.toMachine.withPc (e.programStart + 2 * k)).fetch = some words[k] := by
  have hlength := Program.length_bytes words
  have hfits_bytes : e.programStart + (Program.bytes words).length ≤ 0x1000 := by
    rw [hlength]
    exact hfits
  obtain ⟨after, hload, hloaded, hread⟩ := loaded_loadProgram hstart hfits_bytes
  rw [hlength] at hloaded hread
  refine ⟨after, hload, hloaded, ?_⟩
  intro k hk
  have hword := hread (2 * k) 2 (by omega)
  rw [Program.bytes_slice hk] at hword
  exact fetch_of_loadMany (hwords _ (List.getElem_mem hk)) hword

/-- Instructions that fit are loaded as operations, and the word of each is fetched from
where it was put. -/
theorem loaded_loadOperations {e : Emulator} (hstart : 0 ≤ e.programStart)
    (instructions : List Instruction) (hfits : e.programStart + 2 * instructions.length ≤ 0x1000) :
    ∃ after, e.loadOperations (instructions.map Item.ofInstruction) = .ok after ∧
      Loaded e.toMachine after.toMachine (2 * instructions.length) ∧
      ∀ (k : Nat) (hk : k < instructions.length),
        (after.toMachine.withPc (e.programStart + 2 * k)).fetch =
          some instructions[k].toWord := by
  have hlength : (instructions.map Instruction.toWord).length = instructions.length :=
    List.length_map _
  have hwords : ∀ w ∈ instructions.map Instruction.toWord, w < 0x10000 :=
    List.forall_mem_map.2 fun i _ => i.toWord_lt
  obtain ⟨after, hload, hloaded, hfetch⟩ := loaded_bytes hstart hwords (by rw [hlength]; exact hfits)
  rw [hlength] at hloaded
  refine ⟨after, ?_, hloaded, ?_⟩
  · rw [loadOperations, Program.encode_map_ofInstruction]
    exact hload
  · intro k hk
    have hword := hfetch k (by rw [hlength]; exact hk)
    rwa [List.getElem_map] at hword

/-- Numbers that fit and are words are loaded, and each is fetched from where it was put. -/
theorem loaded_loadWords {e : Emulator} (hstart : 0 ≤ e.programStart) {words : List Int}
    (hrange : ∀ w ∈ words, 0 ≤ w ∧ w ≤ 0xFFFF)
    (hfits : e.programStart + 2 * words.length ≤ 0x1000) :
    ∃ after, e.loadWords words = .ok after ∧
      Loaded e.toMachine after.toMachine (2 * words.length) ∧
      ∀ (k : Nat) (hk : k < words.length), ∃ w : Nat,
        (after.toMachine.withPc (e.programStart + 2 * k)).fetch = some w ∧ (w : Int) = words[k] := by
  have hlength : (words.map Int.toNat).length = words.length := List.length_map _
  have hwords : ∀ w ∈ words.map Int.toNat, w < 0x10000 := by
    refine List.forall_mem_map.2 fun w hw => ?_
    have hw_range := hrange w hw
    omega
  obtain ⟨after, hload, hloaded, hfetch⟩ := loaded_bytes hstart hwords (by rw [hlength]; exact hfits)
  rw [hlength] at hloaded
  refine ⟨after, ?_, hloaded, ?_⟩
  · rw [loadWords, Program.ofWords_of_range hrange]
    exact hload
  · intro k hk
    have hword := hfetch k (by rw [hlength]; exact hk)
    rw [List.getElem_map] at hword
    have hw_range := hrange words[k] (List.getElem_mem hk)
    exact ⟨_, hword, Int.toNat_of_nonneg hw_range.1⟩

/-- **What is loaded is what is executed**: operations that are valid and fit are loaded,
and each is fetched from its place as the word that encodes it, which is decoded to it;
words that fit are loaded, and each is fetched from its place. -/
theorem loaded_is_executed {e : Emulator} (hstart : 0 ≤ e.programStart) :
    (∀ ops : List Operation, (∀ o ∈ ops, o.Valid) →
      e.programStart + 2 * ops.length ≤ 0x1000 →
      ∃ after, e.loadOperations (ops.map .operation) = .ok after ∧
        Loaded e.toMachine after.toMachine (2 * ops.length) ∧
        ∀ (k : Nat) (hk : k < ops.length), ∃ w : Nat,
          (after.toMachine.withPc (e.programStart + 2 * k)).fetch = some w ∧
            ops[k].toWord = .ok w ∧
            (Instruction.decode w).map Instruction.toOperation = some ops[k]) ∧
      ∀ words : List Int, (∀ w ∈ words, 0 ≤ w ∧ w ≤ 0xFFFF) →
        e.programStart + 2 * words.length ≤ 0x1000 →
        ∃ after, e.loadWords words = .ok after ∧
          Loaded e.toMachine after.toMachine (2 * words.length) ∧
          ∀ (k : Nat) (hk : k < words.length), ∃ w : Nat,
            (after.toMachine.withPc (e.programStart + 2 * k)).fetch = some w ∧
              (w : Int) = words[k] := by
  refine ⟨?_, fun words => loaded_loadWords hstart⟩
  intro ops hvalid hfits
  obtain ⟨instructions, rfl⟩ := Operation.exists_instructions hvalid
  have hlength : (instructions.map Instruction.toOperation).length = instructions.length :=
    List.length_map _
  rw [hlength] at hfits
  obtain ⟨after, hload, hloaded, hfetch⟩ := loaded_loadOperations hstart instructions hfits
  refine ⟨after, ?_, ?_, ?_⟩
  · rw [List.map_map]
    exact hload
  · rw [hlength]
    exact hloaded
  · intro k hk
    have hk_instruction : k < instructions.length := by rwa [hlength] at hk
    have hencode := Operation.toWord_toOperation instructions[k]
    rw [List.getElem_map]
    exact ⟨_, hfetch k hk_instruction, hencode,
      Operation.decode_eq_some_iff_toWord.2 (congrArg (Except.map Int.ofNat) hencode)⟩

/-- An emulator with room for two instructions. -/
def smallRoom : Emulator :=
  { toMachine := Machine.blank 0 0 0xFFC (Rng.cycle []), log := .off }

/-- Two operations are loaded up to the very end of memory. -/
theorem loaded_is_executed_smallRoom :
    0 ≤ smallRoom.programStart ∧
      ∃ after,
        smallRoom.loadOperations
            [.operation { opcode := .load, x := 1, kk := 0x42 },
              .operation { opcode := .jump, nnn := 0xFFC }] = .ok after ∧
          Loaded smallRoom.toMachine after.toMachine 4 ∧
          (after.toMachine.withPc 0xFFC).fetch = some 0x6142 ∧
          (after.toMachine.withPc 0xFFE).fetch = some 0x1FFC := by
  have hstart : 0 ≤ smallRoom.programStart := by decide
  let ops : List Operation :=
    [{ opcode := .load, x := 1, kk := 0x42 }, { opcode := .jump, nnn := 0xFFC }]
  obtain ⟨after, hload, hloaded, hfetch⟩ :=
    (loaded_is_executed hstart).1 ops (by decide) (by decide)
  obtain ⟨w₀, hw₀, hload_word, -⟩ := hfetch 0 (by decide)
  obtain ⟨w₁, hw₁, hjump_word, -⟩ := hfetch 1 (by decide)
  have hload_is : ops[0].toWord.toOption = some 0x6142 := by decide +kernel
  have hjump_is : ops[1].toWord.toOption = some 0x1FFC := by decide +kernel
  rw [hload_word] at hload_is
  rw [hjump_word] at hjump_is
  obtain rfl : w₀ = 0x6142 := Option.some.inj hload_is
  obtain rfl : w₁ = 0x1FFC := Option.some.inj hjump_is
  exact ⟨hstart, after, hload, hloaded, hw₀, hw₁⟩

end Emulator

end Chip8
