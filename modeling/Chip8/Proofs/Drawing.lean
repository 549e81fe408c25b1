import Mathlib.Data.Finset.Prod
import Mathlib.Data.Finset.Card
import Chip8.Proofs.Bounds
import Chip8.Proofs.Pixels

/-!
# Chip8.Proofs.Drawing

Drawing a sprite turns around every pixel that an odd number of the sprite's pixels come to lie
on.  A sprite that is taller or wider than the screen wraps onto itself, so this number may be
anything; `card_turns` says that the points which `Screen.drawSprite` goes through are as many.

Rows that are given as numbers are read up to the first one that is no byte (`readRows_cases`), and
what is drawn is what was read (`draw_of_readRows`).
-/

namespace Chip8

namespace Screen

variable {w h : Int}

/-! ## the points of a sprite -/

/-- A sprite has a pixel where a bit of its row is set, the highest bit first. -/
theorem mem_litPoints {rows : List UInt8} {c r : Nat} :
    (c, r) ∈ litPoints rows ↔ c < 8 ∧ ∃ row, rows[r]? = some row ∧ row.toNat.testBit (7 - c) := by
  simp only [litPoints, litColumns, List.mem_flatMap, List.mem_map, List.mem_filter, List.mem_range,
    Prod.mk.injEq, Prod.exists, List.mem_zipIdx_iff_getElem?]
  constructor
  · rintro ⟨row, r', hrow, c', ⟨hc, hbit⟩, rfl, rfl⟩
    exact ⟨hc, row, hrow, hbit⟩
  · rintro ⟨hc, row, hrow, hbit⟩
    exact ⟨row, r, hrow, c, ⟨hc, hbit⟩, rfl, rfl⟩

/-- Every pixel of a sprite is gone through once. -/
theorem nodup_litPoints (rows : List UInt8) : (litPoints rows).Nodup := by
  rw [litPoints, List.nodup_flatMap]
  constructor
  · rintro ⟨row, r⟩ -
    have hinjective : Function.Injective fun c : Nat => (c, r) := fun c c' h => congrArg Prod.fst h
    exact (List.nodup_range.filter _).map hinjective
  · have hdistinct : (rows.zipIdx.map Prod.snd).Nodup := by
      rw [List.zipIdx_map_snd]
      exact List.nodup_range'
    refine (List.pairwise_map.1 hdistinct).imp ?_
    rintro ⟨row, r⟩ ⟨row', r'⟩ hne p hp hp'
    simp only [List.mem_map] at hp hp'
    obtain ⟨c, -, rfl⟩ := hp
    obtain ⟨c', -, heq⟩ := hp'
    exact hne (congrArg Prod.snd heq).symm

/-- The points of the screen that a sprite's pixels come to lie on. -/
def spritePoints (x y : Int) (rows : List UInt8) : List (Int × Int) :=
  (litPoints rows).map fun (c, r) => (x + c, y + r)

/-! ## rows that are given as numbers -/

/-- Rows are read to the end if they are bytes, and otherwise up to the first one that is not. -/
theorem readRows_cases (rows : List Int) :
    (∀ n ∈ rows, IsByte n) ∧ readRows rows = (rows.map lowByte, none) ∨
      ∃ good bad rest, rows = good ++ bad :: rest ∧ (∀ n ∈ good, IsByte n) ∧ ¬IsByte bad ∧
        readRows rows = (good.map lowByte, some bad) := by
  induction rows with
  | nil => exact .inl ⟨by simp, rfl⟩
  | cons n rest ih =>
      by_cases hn : IsByte n
      · rw [readRows, byte?_of_isByte hn]
        rcases ih with ⟨hbytes, hread⟩ | ⟨good, bad, later, rfl, hgood, hbad, hread⟩
        · rw [hread]
          exact .inl ⟨List.forall_mem_cons.2 ⟨hn, hbytes⟩, rfl⟩
        · rw [hread]
          exact .inr ⟨n :: good, bad, later, rfl, List.forall_mem_cons.2 ⟨hn, hgood⟩, hbad, rfl⟩
      · rw [readRows, byte?_eq_none_iff.2 hn]
        exact .inr ⟨[], n, rest, rfl, by simp, hn, rfl⟩

theorem readRows_of_bytes {rows : List Int} (hbytes : ∀ n ∈ rows, IsByte n) :
    readRows rows = (rows.map lowByte, none) := by
  rcases readRows_cases rows with ⟨-, hread⟩ | ⟨good, bad, rest, rfl, -, hbad, -⟩
  · exact hread
  · exact absurd (hbytes bad (by simp)) hbad

/-- Whether a row of a sprite has a pixel in a column, the highest bit first. -/
def HasPixel (rows : List Int) (c r : Nat) : Prop := (rows.getD r 0).toNat.testBit (7 - c)

instance (rows : List Int) (c r : Nat) : Decidable (HasPixel rows c r) :=
  inferInstanceAs (Decidable (_ = true))

theorem mem_litPoints_iff_hasPixel {rows : List Int} (hbytes : ∀ n ∈ rows, IsByte n) {c r : Nat} :
    (c, r) ∈ litPoints (rows.map lowByte) ↔ c < 8 ∧ r < rows.length ∧ HasPixel rows c r := by
  rw [mem_litPoints]
  by_cases hr : r < rows.length
  · have hbyte : IsByte rows[r] := hbytes _ (List.getElem_mem hr)
    simp [HasPixel, hr, toNat_lowByte hbyte]
  · simp [hr]

/-- A sprite turns pixels around if it has any. -/
theorem spritePoints_ne_nil_iff {rows : List Int} (hbytes : ∀ n ∈ rows, IsByte n) (x y : Int) :
    spritePoints x y (rows.map lowByte) ≠ [] ↔ ∃ c < 8, ∃ r < rows.length, HasPixel rows c r := by
  rw [spritePoints, ne_eq, List.map_eq_nil_iff, List.eq_nil_iff_forall_not_mem]
  simp only [Prod.forall, mem_litPoints_iff_hasPixel hbytes, not_forall, not_not,
    exists_and_left]

/-! ## how often a pixel is turned around -/

/-- The columns and rows of a sprite drawn at `(x, y)` in which the pixel at `(px, py)` is turned
around. -/
def turns (w h x y : Int) (rows : List Int) (px py : Int) : Finset (Nat × Nat) :=
  {p ∈ Finset.range 8 ×ˢ Finset.range rows.length |
    HasPixel rows p.1 p.2 ∧ (x + p.1) % w = px ∧ (y + p.2) % h = py}

/-- There are as many of them as there are points that are congruent to the pixel. -/
theorem card_turns {rows : List Int} (hbytes : ∀ n ∈ rows, IsByte n) (x y : Int) {px py : Int}
    (hx : 0 ≤ px ∧ px < w) (hy : 0 ≤ py ∧ py < h) :
    (turns w h x y rows px py).card =
      (spritePoints x y (rows.map lowByte)).countP fun p => Congruent w h p (px, py) := by
  have hnodup := nodup_litPoints (rows.map lowByte)
  -- the list of points may repeat itself, so the pixels of the sprite are counted instead
  rw [spritePoints, List.countP_map, List.countP_eq_length_filter,
    ← List.toFinset_card_of_nodup (hnodup.filter _)]
  congr 1
  ext ⟨c, r⟩
  simp [turns, mem_litPoints_iff_hasPixel hbytes, Congruent, Int.emod_eq_of_lt hx.1 hx.2,
    Int.emod_eq_of_lt hy.1 hy.2, and_assoc]

/-! ## drawing -/

/-- Drawing goes through the points of what was read of the rows. -/
theorem draw_of_xorPixels {s t : Screen w h} {x y : Int} {rows : List Int} {good : List UInt8}
    {bad : Option Int} {hit : Bool} (hread : readRows rows = (good, bad))
    (hxor : s.xorPixels (spritePoints x y good) = .ok (hit, t)) :
    s.draw x y rows = (bad.elim (.ok hit) fun n => .error (.spriteRow n), t) := by
  have hdraw : s.drawSprite x y good = .ok (hit, t) := hxor
  unfold draw
  rw [hread]
  dsimp only
  rw [hdraw]
  cases bad <;> rfl

/-- What is drawn is what was read of the rows. -/
theorem draw_of_readRows (hw : 0 < w) (hh : 0 < h) (s : Screen w h) (x y : Int) {rows : List Int}
    {good : List UInt8} {bad : Option Int} (hread : readRows rows = (good, bad)) :
    ∃ hit, s.draw x y rows = (bad.elim (.ok hit) fun n => .error (.spriteRow n),
      s.turnedAll hw hh (spritePoints x y good)) := by
  obtain ⟨hit, hxor⟩ := s.xorPixels_eq hw hh (spritePoints x y good)
  exact ⟨hit, draw_of_xorPixels hread hxor⟩

/-- **Drawing turns pixels around, with wraparound**: on a screen with positive sides, a sprite
whose rows are bytes is drawn, and then every pixel is as it was, or turned around, by the parity
of the number of the sprite's pixels that come to lie on it; the screen is marked if it was or if
the sprite has a pixel.  If some row is no byte, the first such row is refused, and the screen is
what drawing the rows above it makes of it. -/
theorem draw_turns_by_parity (hw : 0 < w) (hh : 0 < h) (s : Screen w h) (x y : Int)
    (rows : List Int) :
    ((∀ n ∈ rows, IsByte n) →
      (∃ hit, (s.draw x y rows).1 = .ok hit) ∧
      (∀ px py, 0 ≤ px ∧ px < w → 0 ≤ py ∧ py < h →
        ∃ old, s.get px py = .ok old ∧ (s.draw x y rows).2.get px py =
          .ok (old ^^ decide (Odd (turns w h x y rows px py).card))) ∧
      ((s.draw x y rows).2.dirty = true ↔
        s.dirty = true ∨ ∃ c < 8, ∃ r < rows.length, HasPixel rows c r)) ∧
    ((∃ n ∈ rows, ¬IsByte n) →
      ∃ good bad rest, rows = good ++ bad :: rest ∧ (∀ n ∈ good, IsByte n) ∧ ¬IsByte bad ∧
        s.draw x y rows = (.error (.spriteRow bad), (s.draw x y good).2)) := by
  constructor
  · intro hbytes
    obtain ⟨hit, hdraw⟩ := s.draw_of_readRows hw hh x y (readRows_of_bytes hbytes)
    rw [hdraw]
    refine ⟨⟨hit, rfl⟩, ?_, ?_⟩
    · intro px py hx hy
      refine ⟨s.lit hw hh (px, py), s.get_eq hw hh px py, ?_⟩
      rw [get_eq hw hh, lit_turnedAll, card_turns hbytes x y hx hy]
    · rw [dirty_turnedAll, spritePoints_ne_nil_iff hbytes]
  · rintro ⟨n, hn, hnobyte⟩
    rcases readRows_cases rows with ⟨hbytes, -⟩ | ⟨good, bad, rest, hrows, hgood, hbad, hread⟩
    · exact absurd (hbytes n hn) hnobyte
    · obtain ⟨hit, hdraw⟩ := s.draw_of_readRows hw hh x y hread
      obtain ⟨hit', hdraw_good⟩ := s.draw_of_readRows hw hh x y (readRows_of_bytes hgood)
      refine ⟨good, bad, rest, hrows, hgood, hbad, ?_⟩
      rw [hdraw, hdraw_good]
      rfl

/-- A sprite wraps onto itself on a screen of three by two pixels; with a third row it is refused
half way. -/
theorem draw_turns_by_parity_wrapping :
    let s := blank 3 2
    (0 : Int) < 3 ∧ (0 : Int) < 2 ∧ (∀ n ∈ [(0xFF : Int), 0x81], IsByte n) ∧
      (turns 3 2 (-1) (-1) [0xFF, 0x81] 0 1).card = 3 ∧ s.get 0 1 = .ok false ∧
      (s.draw (-1) (-1) [0xFF, 0x81]).2.get 0 1 = .ok true ∧
      ¬IsByte 0x100 ∧
      ∃ good bad rest, [0xFF, 0x81, 0x100, 0xFF] = good ++ bad :: rest ∧ ¬IsByte bad ∧
        s.draw (-1) (-1) [0xFF, 0x81, 0x100, 0xFF] =
          (.error (.spriteRow bad), (s.draw (-1) (-1) good).2) := by
  intro s
  have hw : (0 : Int) < 3 := by decide
  have hh : (0 : Int) < 2 := by decide
  have hbytes : ∀ n ∈ [(0xFF : Int), 0x81], IsByte n := by simp [IsByte]
  have hbad : ¬IsByte 0x100 := by simp [IsByte]
  have hcard : (turns 3 2 (-1) (-1) [0xFF, 0x81] 0 1).card = 3 := by decide
  have hdark : s.get 0 1 = .ok false := rfl
  obtain ⟨-, hpixels, -⟩ := (draw_turns_by_parity hw hh s (-1) (-1) [0xFF, 0x81]).1 hbytes
  obtain ⟨old, hold, hdrawn⟩ := hpixels 0 1 (by decide) (by decide)
  obtain rfl : false = old := Except.ok.inj (hdark.symm.trans hold)
  rw [hcard] at hdrawn
  obtain ⟨good, bad, rest, hrows, -, hrefused, hdraw⟩ :=
    (draw_turns_by_parity hw hh s (-1) (-1) [0xFF, 0x81, 0x100, 0xFF]).2 ⟨0x100, by simp, hbad⟩
  have hodd : (false ^^ decide (Odd 3)) = true := by decide
  exact ⟨hw, hh, hbytes, hcard, hdark, hodd ▸ hdrawn, hbad, good, bad, rest, hrows, hrefused, hdraw⟩

end Screen

end Chip8
