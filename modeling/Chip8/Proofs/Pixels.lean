import Mathlib.Algebra.Ring.Parity
import Chip8.Screen

/-!
# Chip8.Proofs.Pixels

Where the pixels of a screen are, and what turning some of them around comes to.  On a screen with
positive sides every coordinate has a place, and two have the same one exactly if they are
congruent modulo the sides (`place_eq_iff`); so `Screen.lit`, which reads a pixel at its place, is
what `Screen.get` answers.

Points may be congruent to one another, so that one pixel is turned around again and again.
`lit_turnedAll` counts: a pixel ends up as it was, or turned around, by the parity of the number
of points that are congruent to it.
-/

namespace Chip8

namespace Screen

variable {w h : Int}

/-! ## places -/

/-- Whether two points are the same pixel. -/
def Congruent (w h : Int) (p q : Int × Int) : Prop := p.1 % w = q.1 % w ∧ p.2 % h = q.2 % h

instance (p q : Int × Int) : Decidable (Congruent w h p q) := inferInstanceAs (Decidable (_ ∧ _))

/-- The number of a pixel, row by row, is one of those that a screen has. -/
theorem number_mem_range (hw : 0 < w) (hh : 0 < h) (x y : Int) :
    0 ≤ y % h * w + x % w ∧ y % h * w + x % w < w * h := by
  have hx_lo := Int.emod_nonneg x (Int.ne_of_gt hw)
  have hx_hi := Int.emod_lt_of_pos x hw
  have hy_lo := Int.emod_nonneg y (Int.ne_of_gt hh)
  have hy_hi := Int.emod_lt_of_pos y hh
  have hrow := Int.mul_nonneg hy_lo (Int.le_of_lt hw)
  constructor
  · omega
  · calc y % h * w + x % w < y % h * w + w := by omega
      _ = (y % h + 1) * w := by rw [Int.add_mul, Int.one_mul]
      _ ≤ h * w := Int.mul_le_mul_of_nonneg_right (by omega) (Int.le_of_lt hw)
      _ = w * h := Int.mul_comm h w

/-- Pixels have one number exactly if they are congruent. -/
theorem number_eq_iff (hw : 0 < w) (p q : Int × Int) :
    p.2 % h * w + p.1 % w = q.2 % h * w + q.1 % w ↔ Congruent w h p q := by
  constructor
  · intro hsame
    have hx : p.1 % w = q.1 % w := by
      have hmod := congrArg (· % w) hsame
      simpa only [Int.mul_add_emod_self_right, Int.emod_emod] using hmod
    have hy : p.2 % h * w = q.2 % h * w := by omega
    exact ⟨hx, Int.eq_of_mul_eq_mul_right (Int.ne_of_gt hw) hy⟩
  · rintro ⟨hx, hy⟩
    rw [hx, hy]

/-- The place of a pixel, row by row. -/
def place (hw : 0 < w) (hh : 0 < h) (p : Int × Int) : Fin (w * h).toNat :=
  ⟨(p.2 % h * w + p.1 % w).toNat, by
    have hrange := number_mem_range hw hh p.1 p.2
    omega⟩

section Positive

variable (hw : 0 < w) (hh : 0 < h)

theorem locate_eq (x y : Int) : locate w h x y = .ok (place hw hh (x, y)) := by
  have hrange := number_mem_range hw hh x y
  unfold locate place
  rw [dif_pos (Int.mul_pos hw hh)]
  simp only [Int.fmod_eq_emod_of_nonneg _ (Int.le_of_lt hw),
    Int.fmod_eq_emod_of_nonneg _ (Int.le_of_lt hh), Int.emod_eq_of_lt hrange.1 hrange.2]

/-- Points have one place exactly if they are congruent. -/
theorem place_eq_iff (p q : Int × Int) :
    place hw hh p = place hw hh q ↔ Congruent w h p q := by
  have hp := number_mem_range hw hh p.1 p.2
  have hq := number_mem_range hw hh q.1 q.2
  rw [← number_eq_iff hw, place, place, Fin.mk.injEq]
  omega

/-- Every place is the one of a point. -/
theorem exists_place (k : Fin (w * h).toNat) : ∃ p, place hw hh p = k := by
  obtain ⟨k, hk⟩ := k
  have hk_lo : (0 : Int) ≤ k := Int.natCast_nonneg k
  have hk_hi : (k : Int) < h * w := by
    have harea := Int.mul_comm w h
    omega
  have hrow_lo : 0 ≤ (k : Int) / w := Int.ediv_nonneg hk_lo (Int.le_of_lt hw)
  have hrow_hi : (k : Int) / w < h := Int.ediv_lt_of_lt_mul hw hk_hi
  refine ⟨(k % w, k / w), Fin.ext ?_⟩
  simp only [place]
  rw [Int.emod_eq_of_lt hrow_lo hrow_hi, Int.emod_emod, Int.mul_comm, Int.mul_ediv_add_emod,
    Int.toNat_natCast]

/-! ## pixels -/

/-- Whether a pixel is lit. -/
def lit (hw : 0 < w) (hh : 0 < h) (s : Screen w h) (p : Int × Int) : Bool :=
  s.pixels.get (place hw hh p)

/-- The screen with a pixel turned around. -/
def turned (hw : 0 < w) (hh : 0 < h) (s : Screen w h) (p : Int × Int) : Screen w h :=
  ⟨s.pixels.set (place hw hh p) (!s.lit hw hh p), true⟩

/-- Screens that are lit at the same points have the same pixels. -/
theorem pixels_ext {s t : Screen w h} (hsame : ∀ p, s.lit hw hh p = t.lit hw hh p) :
    s.pixels = t.pixels := by
  apply Vector.ext
  intro k hk
  obtain ⟨p, hp⟩ := exists_place hw hh ⟨k, hk⟩
  have hlit := hsame p
  unfold lit at hlit
  rwa [hp] at hlit

theorem get_eq (s : Screen w h) (x y : Int) : s.get x y = .ok (s.lit hw hh (x, y)) := by
  rw [get, locate_eq hw hh]
  rfl

theorem xorPixel_eq (s : Screen w h) (x y : Int) :
    s.xorPixel x y = .ok (s.lit hw hh (x, y), s.turned hw hh (x, y)) := by
  rw [xorPixel, locate_eq hw hh]
  rfl

theorem lit_congr (s : Screen w h) {p q : Int × Int} (hsame : Congruent w h p q) :
    s.lit hw hh p = s.lit hw hh q :=
  congrArg s.pixels.get ((place_eq_iff hw hh p q).2 hsame)

/-- Turning a pixel around changes what is congruent to it, and nothing else. -/
theorem lit_turned (s : Screen w h) (p q : Int × Int) :
    (s.turned hw hh p).lit hw hh q = (s.lit hw hh q ^^ decide (Congruent w h p q)) := by
  have hplace : (place hw hh p).val = (place hw hh q).val ↔ Congruent w h p q := by
    rw [← place_eq_iff hw hh, Fin.val_inj]
  have hset : (s.turned hw hh p).lit hw hh q =
      if (place hw hh p).val = (place hw hh q).val then !s.lit hw hh p else s.lit hw hh q :=
    Vector.getElem_set (place hw hh p).isLt (place hw hh q).isLt
  rw [hset]
  by_cases hsame : Congruent w h p q
  · rw [if_pos (hplace.2 hsame), s.lit_congr hw hh hsame, decide_eq_true hsame, Bool.xor_true]
  · rw [if_neg (mt hplace.1 hsame), decide_eq_false hsame, Bool.xor_false]

/-! ## one pixel after the other -/

theorem xorPixels_cons_eq (s : Screen w h) (p : Int × Int) (rest : List (Int × Int)) :
    s.xorPixels (p :: rest) =
      ((s.turned hw hh p).xorPixels rest).map fun r => (s.lit hw hh p || r.1, r.2) := by
  obtain ⟨x, y⟩ := p
  rw [xorPixels, xorPixel_eq hw hh]
  rfl

/-- The screen with pixels turned around one after the other. -/
def turnedAll (hw : 0 < w) (hh : 0 < h) (s : Screen w h) (points : List (Int × Int)) :
    Screen w h := points.foldl (·.turned hw hh ·) s

theorem xorPixels_eq (s : Screen w h) (points : List (Int × Int)) :
    ∃ hit, s.xorPixels points = .ok (hit, s.turnedAll hw hh points) := by
  induction points generalizing s with
  | nil => exact ⟨false, rfl⟩
  | cons p rest ih =>
      obtain ⟨hit, hrest⟩ := ih (s.turned hw hh p)
      rw [xorPixels_cons_eq hw hh, hrest]
      exact ⟨s.lit hw hh p || hit, rfl⟩

theorem decide_odd_succ (n : Nat) : decide (Odd (n + 1)) = !decide (Odd n) := by
  rw [← decide_not]
  exact decide_eq_decide.2 Nat.odd_add_one

/-- Turning pixels around changes each by the parity of the number of points that are congruent
to it. -/
theorem lit_turnedAll (s : Screen w h) (points : List (Int × Int)) (q : Int × Int) :
    (s.turnedAll hw hh points).lit hw hh q =
      (s.lit hw hh q ^^ decide (Odd (points.countP fun p => Congruent w h p q))) := by
  induction points generalizing s with
  | nil => simp [turnedAll]
  | cons p rest ih =>
      have hrest := ih (s.turned hw hh p)
      rw [lit_turned, Bool.xor_assoc] at hrest
      rw [List.countP_cons]
      by_cases hsame : Congruent w h p q
      · rw [decide_eq_true hsame, Bool.true_xor, ← decide_odd_succ] at hrest
        rw [if_pos (decide_eq_true hsame)]
        exact hrest
      · rw [decide_eq_false hsame, Bool.false_xor] at hrest
        rw [if_neg (by simpa using hsame), Nat.add_zero]
        exact hrest

/-- Turning pixels around sets the mark, if there are any. -/
theorem dirty_turnedAll (s : Screen w h) (points : List (Int × Int)) :
    (s.turnedAll hw hh points).dirty = true ↔ s.dirty = true ∨ points ≠ [] := by
  induction points generalizing s with
  | nil => simp [turnedAll]
  | cons p rest ih =>
      have hrest := ih (s.turned hw hh p)
      have hmarked : (s.turned hw hh p).dirty = true := rfl
      simp only [hmarked, true_or, iff_true] at hrest
      simp only [ne_eq, List.cons_ne_nil, not_false_eq_true, or_true, iff_true]
      exact hrest

end Positive

end Screen

end Chip8
