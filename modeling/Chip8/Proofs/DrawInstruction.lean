import Mathlib.Data.Int.ModEq
import Chip8.Proofs.Direct
import Chip8.Proofs.Drawing

/-!
# Chip8.Proofs.DrawInstruction

The instruction that draws, from the registers and the memory that it reads to the screen and the
flag that it leaves.  Its sprites are eight pixels wide and at most fifteen high, so on this screen
they do not wrap onto themselves: their pixels come to lie on separate pixels of the screen
(`separate_spritePoints`).

Separate turns do not see each other.  A pixel is then turned around if a pixel of the sprite comes
to lie on it (`lit_turnedAll_of_separate`), and there was a collision if one of these was lit before
(`xorPixels_of_separate`).
-/

namespace Chip8

namespace Screen

variable {w h : Int}

/-! ## separate points -/

/-- No two of the points are the same pixel. -/
def Separate (w h : Int) (points : List (Int × Int)) : Prop :=
  points.Pairwise fun p q => ¬Congruent w h p q

/-- Of separate points there is at most one that is a given pixel. -/
theorem odd_countP_of_separate {points : List (Int × Int)} (hseparate : Separate w h points)
    (q : Int × Int) :
    Odd (points.countP fun p => Congruent w h p q) ↔ ∃ p ∈ points, Congruent w h p q := by
  induction points with
  | nil => simp
  | cons p rest ih =>
      obtain ⟨hp, hrest⟩ := List.pairwise_cons.1 hseparate
      rw [List.countP_cons, List.exists_mem_cons_iff]
      by_cases hsame : Congruent w h p q
      · have hothers : rest.countP (fun p => Congruent w h p q) = 0 := by
          rw [List.countP_eq_zero]
          intro p' hp'
          rw [decide_eq_true_eq]
          intro hsame'
          exact hp p' hp' ⟨hsame.1.trans hsame'.1.symm, hsame.2.trans hsame'.2.symm⟩
        simp [hothers, hsame]
      · simp [hsame, ih hrest]

section Positive

variable (hw : 0 < w) (hh : 0 < h)

/-- Turning separate pixels around changes these and no others. -/
theorem lit_turnedAll_of_separate (s : Screen w h) {points : List (Int × Int)}
    (hseparate : Separate w h points) (q : Int × Int) :
    (s.turnedAll hw hh points).lit hw hh q ≠ s.lit hw hh q ↔ ∃ p ∈ points, Congruent w h p q := by
  rw [lit_turnedAll, ← odd_countP_of_separate hseparate]
  cases s.lit hw hh q <;> simp

/-- Separate pixels are found as they were before the first of them was turned around. -/
theorem xorPixels_of_separate (s : Screen w h) {points : List (Int × Int)}
    (hseparate : Separate w h points) :
    s.xorPixels points = .ok (points.any (s.lit hw hh), s.turnedAll hw hh points) := by
  induction points generalizing s with
  | nil => rfl
  | cons p rest ih =>
      obtain ⟨hp, hrest⟩ := List.pairwise_cons.1 hseparate
      have hfound : rest.any ((s.turned hw hh p).lit hw hh) = rest.any (s.lit hw hh) := by
        rw [Bool.eq_iff_iff, List.any_eq_true, List.any_eq_true]
        refine exists_congr fun q => and_congr_right fun hq => ?_
        rw [lit_turned, decide_eq_false (hp q hq), Bool.xor_false]
      rw [xorPixels_cons_eq hw hh, ih _ hrest, hfound]
      rfl

/-- Whether some of the points is lit can be seen on the screen. -/
theorem any_lit_iff (s : Screen w h) (points : List (Int × Int)) :
    points.any (s.lit hw hh) = true ↔
      ∃ px py, (0 ≤ px ∧ px < w) ∧ (0 ≤ py ∧ py < h) ∧ s.get px py = .ok true ∧
        ∃ p ∈ points, Congruent w h p (px, py) := by
  rw [List.any_eq_true]
  constructor
  · rintro ⟨p, hp, hlit⟩
    have hsame : Congruent w h p (p.1 % w, p.2 % h) :=
      ⟨(Int.emod_emod p.1 w).symm, (Int.emod_emod p.2 h).symm⟩
    refine ⟨p.1 % w, p.2 % h, ⟨Int.emod_nonneg _ (Int.ne_of_gt hw), Int.emod_lt_of_pos _ hw⟩,
      ⟨Int.emod_nonneg _ (Int.ne_of_gt hh), Int.emod_lt_of_pos _ hh⟩, ?_, p, hp, hsame⟩
    rw [get_eq hw hh, ← s.lit_congr hw hh hsame, hlit]
  · rintro ⟨px, py, -, -, hget, p, hp, hsame⟩
    rw [get_eq hw hh, Except.ok.injEq] at hget
    exact ⟨p, hp, (s.lit_congr hw hh hsame).trans hget⟩

end Positive

/-! ## sprites that do not wrap onto themselves -/

/-- Offsets that are smaller than a side lead to different coordinates. -/
theorem eq_of_add_emod_eq {n x : Int} {a b : Nat} (ha : a < n) (hb : b < n)
    (hsame : (x + a) % n = (x + b) % n) : a = b := by
  have hoffsets : (a : Int) % n = b % n := Int.ModEq.add_left_cancel' x hsame
  rw [Int.emod_eq_of_lt (Int.natCast_nonneg a) ha, Int.emod_eq_of_lt (Int.natCast_nonneg b) hb]
    at hoffsets
  exact Int.ofNat.inj hoffsets

/-- A sprite that is no larger than the screen has its pixels on separate ones of the screen. -/
theorem separate_spritePoints (hw : 8 ≤ w) {rows : List UInt8} (hh : rows.length ≤ h) (x y : Int) :
    Separate w h (spritePoints x y rows) := by
  rw [Separate, spritePoints, List.pairwise_map]
  refine (nodup_litPoints rows).imp_of_mem ?_
  rintro ⟨c, r⟩ ⟨c', r'⟩ hp hp' hne ⟨hx, hy⟩
  obtain ⟨hc, row, hrow, -⟩ := mem_litPoints.1 hp
  obtain ⟨hc', row', hrow', -⟩ := mem_litPoints.1 hp'
  have hr := (List.getElem?_eq_some_iff.1 hrow).1
  have hr' := (List.getElem?_eq_some_iff.1 hrow').1
  have hcolumn : c = c' := eq_of_add_emod_eq (by omega) (by omega) hx
  have hheight : r = r' := eq_of_add_emod_eq (by omega) (by omega) hy
  exact hne (Prod.ext hcolumn hheight)

end Screen

namespace Machine

/-- Whether a pixel of the sprite that the index register points at, the one in a column and a row,
comes to lie on a pixel of the screen when the sprite is drawn at the position in two registers. -/
def Covers (m : Machine) (x y : Register) (px py : Int) (c r : Nat) : Prop :=
  ((m.reg x).toNat + c : Int) % 64 = px ∧ ((m.reg y).toNat + r : Int) % 32 = py ∧
    ∃ b, m.memory.load (wrap (m.processor.i + r)) = .ok b ∧ b.toNat.testBit (7 - c) = true

/-- The points that the instruction turns around, one after the other. -/
def drawnPoints (m : Machine) (x y : Register) (n : Nibble) : List (Int × Int) :=
  Screen.spritePoints (m.reg x).toNat (m.reg y).toNat (m.rowsAtIndex n)

theorem length_rowsAtIndex (m : Machine) (n : Nibble) : (m.rowsAtIndex n).length = n.val := by
  simp [rowsAtIndex]

theorem getElem?_rowsAtIndex {m : Machine} {n : Nibble} {r : Nat} {b : UInt8} :
    (m.rowsAtIndex n)[r]? = some b ↔
      r < n.val ∧ m.memory.load (wrap (m.processor.i + r)) = .ok b := by
  have hread : m.memory.load (wrap (m.processor.i + r)) = .ok (m.peek (m.processor.i + r)) :=
    m.read_eq _
  rw [hread, Except.ok.injEq]
  by_cases hr : r < n.val <;> simp [rowsAtIndex, hr]

/-- The points are those that the sprite covers. -/
theorem exists_drawnPoints_iff {m : Machine} {x y : Register} {n : Nibble} {px py : Int}
    (hx : 0 ≤ px ∧ px < 64) (hy : 0 ≤ py ∧ py < 32) :
    (∃ p ∈ m.drawnPoints x y n, Screen.Congruent 64 32 p (px, py)) ↔
      ∃ r < n.val, ∃ c < 8, m.Covers x y px py c r := by
  have hpx : px % 64 = px := Int.emod_eq_of_lt hx.1 hx.2
  have hpy : py % 32 = py := Int.emod_eq_of_lt hy.1 hy.2
  constructor
  · rintro ⟨p, hp, hcolumn, hrow⟩
    obtain ⟨⟨c, r⟩, hlit, rfl⟩ := List.mem_map.1 hp
    obtain ⟨hc, b, hb, hbit⟩ := Screen.mem_litPoints.1 hlit
    obtain ⟨hr, hload⟩ := getElem?_rowsAtIndex.1 hb
    exact ⟨r, hr, c, hc, hcolumn.trans hpx, hrow.trans hpy, b, hload, hbit⟩
  · rintro ⟨r, hr, c, hc, hcolumn, hrow, b, hload, hbit⟩
    have hlit := Screen.mem_litPoints.2 ⟨hc, b, getElem?_rowsAtIndex.2 ⟨hr, hload⟩, hbit⟩
    exact ⟨_, List.mem_map.2 ⟨(c, r), hlit, rfl⟩, hcolumn.trans hpx.symm, hrow.trans hpy.symm⟩

theorem separate_drawnPoints (m : Machine) (x y : Register) (n : Nibble) :
    Screen.Separate 64 32 (m.drawnPoints x y n) := by
  have hrows := m.length_rowsAtIndex n
  have hn := n.isLt
  exact Screen.separate_spritePoints (by decide) (by omega) _ _

end Machine

namespace Emulator

open Machine

/-- **Drawing by instruction**: the instruction that draws is always carried out.  It turns around
exactly the pixels of the screen that a pixel of the sprite comes to lie on, at the position that the
two registers hold before, and none of them twice; the flag register then says whether one of these
was lit before.  The program counter goes on to the next instruction, and nothing else changes. -/
theorem draw_by_instruction (e : Emulator) (x y : Register) (n : Nibble) :
    ∃ hit after,
      e.execute (.operation { opcode := .draw, x := x.val, y := y.val, n := n.val }) =
        (.ok true, after) ∧
      after.toMachine =
        { e.toMachine with
          screen := after.screen
          processor :=
            { e.processor with
              v := e.processor.v.set 0xF (if hit then 1 else 0)
              pc := wrap (e.processor.pc + 2) } } ∧
      (∀ px py, 0 ≤ px ∧ px < 64 → 0 ≤ py ∧ py < 32 →
        ∃ old new, e.screen.get px py = .ok old ∧ after.screen.get px py = .ok new ∧
          (new ≠ old ↔ ∃ r < n.val, ∃ c < 8, e.Covers x y px py c r)) ∧
      (e.screen.xorPixels (e.drawnPoints x y n) = .ok (hit, after.screen) ∧
        Screen.Separate 64 32 (e.drawnPoints x y n)) ∧
      (hit = true ↔ ∃ px py, (0 ≤ px ∧ px < 64) ∧ (0 ≤ py ∧ py < 32) ∧
        e.screen.get px py = .ok true ∧ ∃ r < n.val, ∃ c < 8, e.Covers x y px py c r) := by
  have hw : (0 : Int) < 64 := by decide
  have hh : (0 : Int) < 32 := by decide
  have hseparate := e.separate_drawnPoints x y n
  have hxor := e.screen.xorPixels_of_separate hw hh hseparate
  have hexecuted := (e.execute_toOperation ⟨.draw, (x, y, n)⟩).trans
    (carryOut_of_ok (perform_draw hxor))
  refine ⟨_, _, hexecuted, rfl, ?_, ⟨hxor, hseparate⟩, ?_⟩
  · intro px py hx hy
    refine ⟨_, _, e.screen.get_eq hw hh px py, Screen.get_eq hw hh _ px py, ?_⟩
    rw [← exists_drawnPoints_iff hx hy]
    exact e.screen.lit_turnedAll_of_separate hw hh hseparate (px, py)
  · rw [Screen.any_lit_iff]
    refine exists_congr fun px => exists_congr fun py => ?_
    refine and_congr_right fun hx => and_congr_right fun hy => and_congr_right fun _ => ?_
    exact exists_drawnPoints_iff hx hy

end Emulator

end Chip8
