import Mathlib.Data.List.Induction
import Chip8.Proofs.FontPlace

/-!
# Chip8.Proofs.ByteMap

Memory is a map from the addresses below its size to bytes.  Single bytes, blocks and the font are
written by different calls, each with checks of its own; `outcome_make` says that all of them accept
the same: numbers that are bytes and have an address each (`Fits`).  What is not accepted changes
nothing, however much of it would have fitted.

So an address holds what the last call has put there that was accepted, or zero if there was none
since everything was cleared (`lastWritten`, `content_serveAll`).  A block is read where every address
of it can be read, and has the bytes that are read one by one (`loadMany_eq_none_iff`,
`load_of_loadMany`).
-/

namespace Chip8

/-- What memory refuses something for. -/
def Fault.fromMemory : Fault → Prop
  | .outsideMemory _ | .notByte _ | .blockNotBytes => True
  | _ => False

namespace Memory

variable {size : Nat}

/-! ## blocks of numbers -/

/-- Each number of a block has an address, from `a` on, and is a byte. -/
def Fits (size : Nat) (a : Int) (block : List Int) : Prop :=
  ∀ (k : Nat) (hk : k < block.length), (0 ≤ a + k ∧ a + k < size) ∧ IsByte block[k]

instance (size : Nat) (a : Int) (block : List Int) : Decidable (Fits size a block) :=
  inferInstanceAs (Decidable (∀ (k : Nat) (_ : k < block.length), _))

/-- The two ends of a block say whether there is an address for each of its numbers. -/
theorem fits_iff {a : Int} {block : List Int} (hblock : block ≠ []) :
    Fits size a block ↔ (0 ≤ a ∧ a + block.length ≤ size) ∧ ∀ n ∈ block, IsByte n := by
  have hpos := List.length_pos_iff.2 hblock
  constructor
  · intro h
    have hfirst := (h 0 hpos).1
    have hlast := (h (block.length - 1) (by omega)).1
    refine ⟨by omega, fun n hn => ?_⟩
    obtain ⟨k, hk, rfl⟩ := List.getElem_of_mem hn
    exact (h k hk).2
  · rintro ⟨hends, hbytes⟩ k hk
    exact ⟨by omega, hbytes _ (List.getElem_mem hk)⟩

theorem fits_singleton_iff {a value : Int} :
    Fits size a [value] ↔ (0 ≤ a ∧ a < size) ∧ IsByte value := by
  rw [fits_iff (List.cons_ne_nil value []), List.forall_mem_singleton, List.length_singleton]
  refine and_congr_left fun _ => ?_
  omega

/-- A block does not fit if it has a number without an address or one that is no byte. -/
theorem not_fits_iff {a : Int} {block : List Int} :
    ¬Fits size a block ↔
      block ≠ [] ∧
        ((∃ k : Nat, k < block.length ∧ ¬(0 ≤ a + k ∧ a + k < size)) ∨
          ∃ n ∈ block, ¬IsByte n) := by
  constructor
  · intro h
    obtain ⟨k, hk, hbad⟩ : ∃ k, ∃ hk : k < block.length,
        ¬((0 ≤ a + k ∧ a + k < size) ∧ IsByte block[k]) := by
      simpa only [Fits, not_forall] using h
    refine ⟨List.ne_nil_of_length_pos (Nat.zero_lt_of_lt hk), ?_⟩
    rcases not_and_or.1 hbad with hplace | hbyte
    · exact .inl ⟨k, hk, hplace⟩
    · exact .inr ⟨_, List.getElem_mem hk, hbyte⟩
  · rintro ⟨-, ⟨k, hk, hplace⟩ | ⟨n, hn, hbyte⟩⟩ hfits
    · exact hplace (hfits k hk).1
    · obtain ⟨k, hk, rfl⟩ := List.getElem_of_mem hn
      exact hbyte (hfits k hk).2

theorem mapM_byte?_of_bytes {block : List Int} (h : ∀ n ∈ block, IsByte n) :
    block.mapM byte? = some (block.map lowByte) := by
  induction block with
  | nil => rfl
  | cons n rest ih =>
      obtain ⟨hn, hrest⟩ := List.forall_mem_cons.1 h
      rw [List.mapM_cons, byte?_of_isByte hn, ih hrest]
      rfl

theorem mapM_byte?_eq_none {block : List Int} {n : Int} (hmem : n ∈ block) (hn : ¬IsByte n) :
    block.mapM byte? = none := by
  induction block with
  | nil => exact absurd hmem List.not_mem_nil
  | cons first rest ih =>
      rw [List.mapM_cons]
      rcases List.mem_cons.1 hmem with rfl | hrest
      · rw [byte?_eq_none_iff.2 hn]
        rfl
      · rw [ih hrest]
        cases byte? first <;> rfl

/-! ## what writing a block comes to -/

/-- What writing a block comes to: all of it is written if it fits, and nothing otherwise. -/
inductive BlockOutcome (m : Memory size) (a : Int) (block : List Int) :
    Except Fault (Memory size) → Prop
  | written {after : Memory size} (hfits : Fits size a block)
      (h : after.bytes = overwrite m.bytes a.toNat (block.map lowByte)) :
      BlockOutcome m a block (.ok after)
  | refused {cause : Fault} (hfits : ¬Fits size a block) (h : cause.fromMemory) :
      BlockOutcome m a block (.error cause)

/-- A single byte is a block of one. -/
theorem outcome_store (m : Memory size) (a value : Int) :
    BlockOutcome m a [value] (m.store a value) := by
  unfold store
  by_cases hplace : 0 ≤ a ∧ a < size
  · have hlocate : locate size a = .ok ⟨a.toNat, by omega⟩ := dif_pos hplace
    rw [hlocate]
    by_cases hvalue : IsByte value
    · have hset : m.bytes.set a.toNat (lowByte value) (by omega) =
          m.bytes.setIfInBounds a.toNat (lowByte value) :=
        Vector.ext fun j hj => by rw [Vector.getElem_set, Vector.getElem_setIfInBounds]
      rw [byte?_of_isByte hvalue]
      exact .written (fits_singleton_iff.2 ⟨hplace, hvalue⟩) hset
    · rw [byte?_eq_none_iff.2 hvalue]
      exact .refused (fun hfits => hvalue (fits_singleton_iff.1 hfits).2) trivial
  · rw [locate_of_outside hplace]
    exact .refused (fun hfits => hplace (fits_singleton_iff.1 hfits).1) trivial

/-- A block of numbers that are bytes is written like these. -/
theorem storeMany_of_bytes (m : Memory size) (a : Int) {block : List Int}
    (h : ∀ n ∈ block, IsByte n) : m.storeMany a block = m.storeBytes a (block.map lowByte) := by
  unfold storeMany storeBytes
  rw [mapM_byte?_of_bytes h, List.isEmpty_map, List.length_map]

/-- The places of a block are looked at before its numbers are, and all of these before the first
is written. -/
theorem outcome_storeMany (m : Memory size) (a : Int) (block : List Int) :
    BlockOutcome m a block (m.storeMany a block) := by
  by_cases hblock : block = []
  · subst hblock
    exact .written (fun k hk => absurd hk (Nat.not_lt_zero k)) rfl
  · have hnonempty : block.isEmpty = false := List.isEmpty_eq_false_iff.2 hblock
    by_cases hends : 0 ≤ a ∧ a + block.length ≤ size
    · by_cases hbytes : ∀ n ∈ block, IsByte n
      · have hlength : a + (block.map lowByte).length ≤ size := by
          rw [List.length_map]
          exact hends.2
        rw [m.storeMany_of_bytes a hbytes, m.storeBytes_of_fits hends.1 hlength]
        exact .written ((fits_iff hblock).2 ⟨hends, hbytes⟩) rfl
      · obtain ⟨n, hmem, hn⟩ : ∃ n ∈ block, ¬IsByte n := by simpa using hbytes
        have hpos := List.length_pos_iff.2 hblock
        have hrefused : m.storeMany a block = .error .blockNotBytes := by
          rw [storeMany, hnonempty, locateBlock_of_fits hpos hends, mapM_byte?_eq_none hmem hn]
          rfl
        rw [hrefused]
        exact .refused (fun hfits => hbytes ((fits_iff hblock).1 hfits).2) trivial
    · have hrefused : m.storeMany a block =
          .error (.outsideMemory (overrun size a block.length)) := by
        rw [storeMany, hnonempty, locateBlock_of_not_fits hends]
        rfl
      rw [hrefused]
      exact .refused (fun hfits => hends ((fits_iff hblock).1 hfits).1) trivial

/-- The font, as numbers. -/
def fontBlock : List Int := systemFont.map fun b => (b.toNat : Int)

theorem lowByte_toNat (b : UInt8) : lowByte b.toNat = b := by
  have hlow := byte?_of_isByte (isByte_toNat b)
  rw [byte?_toNat] at hlow
  exact (Option.some.inj hlow).symm

/-- The font is a block like others. -/
theorem outcome_installFont (m : Memory size) (a : Int) :
    BlockOutcome m a fontBlock (m.installFont a) := by
  have hbytes : ∀ n ∈ fontBlock, IsByte n := List.forall_mem_map.2 fun b _ => isByte_toNat b
  have hfont : fontBlock.map lowByte = systemFont := by
    rw [fontBlock, List.map_map]
    exact List.map_id'' lowByte_toNat systemFont
  have hstore := m.outcome_storeMany a fontBlock
  rw [m.storeMany_of_bytes a hbytes, hfont] at hstore
  unfold installFont
  generalize m.storeBytes a systemFont = r at hstore ⊢
  cases hstore with
  | written hfits h => exact .written hfits h
  | refused hfits h => exact .refused hfits h

/-! ## calls -/

/-- A call that changes memory. -/
inductive Write
  | store (a value : Int)
  | storeMany (a : Int) (block : List Int)
  | installFont (a : Int)
  | clear

/-- From where on a call writes. -/
def Write.place : Write → Int
  | store a _ | storeMany a _ | installFont a => a
  | clear => 0

/-- What a call writes. -/
def Write.block : Write → List Int
  | store _ value => [value]
  | storeMany _ block => block
  | installFont _ => fontBlock
  | clear => []

def Write.isClear : Write → Bool
  | clear => true
  | _ => false

/-- What a call makes of a memory, if it is accepted. -/
def make (m : Memory size) : Write → Except Fault (Memory size)
  | .store a value => m.store a value
  | .storeMany a block => m.storeMany a block
  | .installFont a => m.installFont a
  | .clear => .ok m.clear

/-- The answer to a call, and the memory after it. -/
def serve (m : Memory size) (w : Write) : Except Fault Unit × Memory size :=
  match m.make w with
  | .ok after => (.ok (), after)
  | .error cause => (.error cause, m)

/-- The memory after calls made one after the other. -/
def serveAll (m : Memory size) (writes : List Write) : Memory size :=
  writes.foldl (fun m w => (m.serve w).2) m

/-- Other calls than clearing write a block. -/
theorem outcome_make (m : Memory size) {w : Write} (h : w.isClear = false) :
    BlockOutcome m w.place w.block (m.make w) := by
  cases w with
  | store a value => exact m.outcome_store a value
  | storeMany a block => exact m.outcome_storeMany a block
  | installFont a => exact m.outcome_installFont a
  | clear => cases h

/-- **All or nothing**: a call whose block fits is answered, and any other is refused by memory and
leaves it as it was. -/
theorem serve_cases (m : Memory size) (w : Write) :
    (Fits size w.place w.block ∧ (m.serve w).1 = .ok ()) ∨
      ¬Fits size w.place w.block ∧ ∃ cause, cause.fromMemory ∧ m.serve w = (.error cause, m) := by
  cases hclear : w.isClear with
  | true =>
      cases w with
      | clear => exact .inl ⟨fun k hk => absurd hk (Nat.not_lt_zero k), rfl⟩
      | store | storeMany | installFont => cases hclear
  | false =>
      have hout := m.outcome_make hclear
      unfold serve
      generalize m.make w = r at hout ⊢
      cases hout with
      | written hfits _ => exact .inl ⟨hfits, rfl⟩
      | refused hfits h => exact .inr ⟨hfits, _, h, rfl⟩

theorem serve_ok_iff (m : Memory size) (w : Write) :
    (m.serve w).1 = .ok () ↔ Fits size w.place w.block := by
  rcases m.serve_cases w with ⟨hfits, hok⟩ | ⟨hfits, cause, -, hrefused⟩
  · exact iff_of_true hok hfits
  · rw [hrefused]
    exact iff_of_false nofun hfits

/-! ## what is where -/

/-- The number that a call puts at an address, if it is accepted. -/
def Write.value? (size : Nat) (a : Int) (w : Write) : Option Int :=
  if Fits size w.place w.block ∧ w.place ≤ a then w.block[(a - w.place).toNat]? else none

/-- The number that the last call that was accepted has put at an address, or zero if there has
been none since everything was cleared. -/
def lastWritten (size : Nat) (a : Int) (writes : List Write) : Int :=
  ((writes.reverse.takeWhile fun w => !w.isClear).findSome? (Write.value? size a)).getD 0

theorem lastWritten_append_singleton (size : Nat) (a : Int) (writes : List Write) (w : Write) :
    lastWritten size a (writes ++ [w]) =
      if w.isClear then 0 else (w.value? size a).getD (lastWritten size a writes) := by
  unfold lastWritten
  rw [List.reverse_append, List.reverse_singleton, List.singleton_append, List.takeWhile_cons]
  cases w.isClear with
  | true => rfl
  | false =>
      simp only [Bool.not_false, if_true, List.findSome?_cons, Bool.false_eq_true, if_false]
      cases w.value? size a <;> rfl

/-- A block that fits puts its numbers at its addresses, and leaves the other bytes alone. -/
theorem toNat_getElem_overwrite (bytes : Vector UInt8 size) {a : Int} {block : List Int}
    (hfits : Fits size a block) {k : Nat} (hk : k < size) :
    ((overwrite bytes a.toNat (block.map lowByte))[k].toNat : Int) =
      (if a ≤ k then block[(k - a).toNat]? else none).getD bytes[k].toNat := by
  rw [getElem_overwrite]
  by_cases hin : a.toNat ≤ k ∧ k - a.toNat < (block.map lowByte).length
  · obtain ⟨hle, hlt⟩ := hin
    rw [dif_pos ⟨hle, hlt⟩, List.getElem_map]
    rw [List.length_map] at hlt
    have hfirst := (hfits 0 (by omega)).1.1
    have hbyte := (hfits _ hlt).2
    have hindex : ((k : Int) - a).toNat = k - a.toNat := by omega
    rw [if_pos (by omega), hindex, List.getElem?_eq_getElem hlt, Option.getD_some,
      toNat_lowByte hbyte, Int.toNat_of_nonneg hbyte.1]
  · rw [dif_neg hin]
    rw [List.length_map] at hin
    by_cases hle : a ≤ k
    · have hpast : block.length ≤ ((k : Int) - a).toNat := by
        by_contra hlt
        have hfirst := (hfits 0 (by omega)).1.1
        omega
      rw [if_pos hle, List.getElem?_eq_none hpast, Option.getD_none]
    · rw [if_neg hle, Option.getD_none]

/-- What one call makes of the byte at an address. -/
theorem content_serve (m : Memory size) (w : Write) {k : Nat} (hk : k < size) :
    ((m.serve w).2.bytes[k].toNat : Int) =
      if w.isClear then 0 else (w.value? size k).getD m.bytes[k].toNat := by
  cases hclear : w.isClear with
  | true =>
      cases w with
      | clear =>
          change (((Vector.replicate size (0 : UInt8))[k]).toNat : Int) = 0
          rw [Vector.getElem_replicate]
          rfl
      | store | storeMany | installFont => cases hclear
  | false =>
      have hout := m.outcome_make hclear
      rw [if_neg Bool.false_ne_true, Write.value?, serve]
      generalize m.make w = r at hout ⊢
      cases hout with
      | refused hfits h => simp only [hfits, false_and, if_false, Option.getD_none]
      | written hfits h =>
          simp only [hfits, true_and, h]
          exact toNat_getElem_overwrite m.bytes hfits hk

theorem serveAll_append_singleton (m : Memory size) (writes : List Write) (w : Write) :
    m.serveAll (writes ++ [w]) = ((m.serveAll writes).serve w).2 :=
  List.foldl_append

/-- After any calls an address holds what was last written to it. -/
theorem content_serveAll (writes : List Write) {k : Nat} (hk : k < size) :
    (((blank size).serveAll writes).bytes[k].toNat : Int) = lastWritten size k writes := by
  induction writes using List.reverseRecOn with
  | nil =>
      change (((Vector.replicate size (0 : UInt8))[k]).toNat : Int) = 0
      rw [Vector.getElem_replicate]
      rfl
  | append_singleton writes w ih =>
      simp only [serveAll_append_singleton]
      rw [content_serve, lastWritten_append_singleton, ih]

-- The last of these blocks is refused, and what was there before everything was cleared is gone.
example : lastWritten 4 1 [.store 2 7, .clear, .storeMany 0 [8, 9], .storeMany 1 [5, 300]] = 9 ∧
    lastWritten 4 2 [.store 2 7, .clear, .storeMany 0 [8, 9], .storeMany 1 [5, 300]] = 0 := by
  decide

/-! ## reading -/

/-- A single byte is read from the place of its address. -/
theorem load_of_place (m : Memory size) {a : Int} {k : Fin size} (h : a = k.val) :
    m.load a = .ok (m.bytes.get k) := by
  rw [load, locate_eq_ok_iff.2 h]
  rfl

theorem load_of_outside (m : Memory size) {a : Int} (h : ¬(0 ≤ a ∧ a < size)) :
    m.load a = .error (.outsideMemory a) := by
  rw [load, locate_of_outside h]
  rfl

/-- A block is read unless it begins before the first address, ends after the last or has a
negative length. -/
theorem loadMany_eq_none_iff (m : Memory size) {a count : Int} :
    m.loadMany a count = none ↔ a < 0 ∨ count < 0 ∨ size < a + count := by
  unfold loadMany
  split
  · rename_i h
    exact iff_of_false nofun (by omega)
  · rename_i h
    exact iff_of_true rfl (by omega)

/-- The bytes of a block are those that are read one by one. -/
theorem load_of_loadMany {m : Memory size} {a count : Int} {bytes : List UInt8}
    (h : m.loadMany a count = some bytes) :
    (bytes.length : Int) = count ∧
      ∀ (k : Nat) (hk : k < bytes.length), m.load (a + k) = .ok bytes[k] := by
  unfold loadMany at h
  split at h
  · rename_i hrange
    obtain rfl := Option.some.inj h
    refine ⟨by rw [List.length_ofFn, Int.toNat_of_nonneg hrange.2.1], fun k hk => ?_⟩
    rw [List.getElem_ofFn]
    exact m.load_of_place (by simp only; omega)
  · cases h

/-- Bytes that are read one by one are read as a block. -/
theorem loadMany_of_load {m : Memory size} {a : Int} {bytes : List UInt8}
    (hrange : 0 ≤ a ∧ a + bytes.length ≤ size)
    (h : ∀ (k : Nat) (hk : k < bytes.length), m.load (a + k) = .ok bytes[k]) :
    m.loadMany a bytes.length = some bytes := by
  cases hread : m.loadMany a bytes.length with
  | none =>
      have houtside := m.loadMany_eq_none_iff.1 hread
      omega
  | some read =>
      obtain ⟨hlength, hbytes⟩ := load_of_loadMany hread
      refine congrArg some (List.ext_getElem (Int.ofNat.inj hlength) ?_)
      intro k hk hk'
      exact Except.ok.inj ((hbytes k hk).symm.trans (h k hk'))

/-- A new memory is empty. -/
theorem eq_blank_of_ofSize {made : Memory size} (h : ofSize size = .ok made) :
    made = blank size := by
  unfold ofSize at h
  cases hsize : checkSize size with
  | ok _ =>
      rw [hsize] at h
      exact (Except.ok.inj h).symm
  | error cause =>
      rw [hsize] at h
      cases h

/-- **A bounded map of bytes**: a new memory is blank, and after any calls, refused ones included,
an address below its size holds what the last call that was answered has put there, or zero if
there was none since everything was cleared; there is nothing at other addresses.  A block is read
exactly if it lies within memory, and has the bytes that are at its addresses.  A byte is stored
exactly if address and value are in range, and a block unless one of its addresses or of its values
is not; what is refused changes nothing. -/
theorem bounded_byte_map (size : Nat) (writes : List Write) :
    let m := (blank size).serveAll writes
    (∀ made, ofSize size = .ok made → made = blank size) ∧
    (∀ a, (m.load a).map (fun b => (b.toNat : Int)) =
      if 0 ≤ a ∧ a < size then .ok (lastWritten size a writes) else .error (.outsideMemory a)) ∧
    (∀ a count, m.loadMany a count = none ↔ a < 0 ∨ count < 0 ∨ size < a + count) ∧
    (∀ a count bytes, m.loadMany a count = some bytes →
      (bytes.length : Int) = count ∧
        ∀ (k : Nat) (hk : k < bytes.length), m.load (a + k) = .ok bytes[k]) ∧
    (∀ w, (m.serve w).1 = .ok () ∧ Fits size w.place w.block ∨
      ¬Fits size w.place w.block ∧ ∃ cause, cause.fromMemory ∧ m.serve w = (.error cause, m)) ∧
    (∀ a value, (m.serve (.store a value)).1 ≠ .ok () ↔ ¬(0 ≤ a ∧ a < size) ∨ ¬IsByte value) ∧
    ∀ a block, (m.serve (.storeMany a block)).1 ≠ .ok () ↔
      block ≠ [] ∧
        ((∃ k : Nat, k < block.length ∧ ¬(0 ≤ a + k ∧ a + k < size)) ∨
          ∃ value ∈ block, ¬IsByte value) := by
  intro m
  refine ⟨fun made => eq_blank_of_ofSize, ?_, fun a count => m.loadMany_eq_none_iff,
    fun a count bytes => load_of_loadMany, ?_, ?_, ?_⟩
  · intro a
    by_cases h : 0 ≤ a ∧ a < size
    · obtain ⟨k, rfl⟩ := Int.eq_ofNat_of_zero_le h.1
      have hk : k < size := Int.ofNat_lt.1 h.2
      rw [m.load_of_place (k := ⟨k, hk⟩) rfl, if_pos h, ← content_serveAll writes hk]
      rfl
    · rw [m.load_of_outside h, if_neg h]
      rfl
  · intro w
    exact (m.serve_cases w).imp_left And.symm
  · intro a value
    rw [Ne, serve_ok_iff, ← not_and_or]
    exact not_congr fits_singleton_iff
  · intro a block
    rw [Ne, serve_ok_iff]
    exact not_fits_iff

end Memory

end Chip8
