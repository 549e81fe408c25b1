import Mathlib
import Chip8.Time.Binary64

/-!
# Chip8.Proofs.Rounding

How far a rounded time is from the exact one.  A double near `n / d` has its last bit at
`lastBit n d`, and `units` counts how many times that bit goes into the quotient, to the nearest
whole number (`abs_units_sub_le`).  As the last bit is 52 places below the first or the lowest
that there is, `abs_round_sub_le` bounds the error by a small part of the value.
-/

namespace Chip8.Binary64

/-! ## whole numbers -/

theorem roundDiv_close (n : Nat) {d : Nat} (hd : 0 < d) :
    2 * n ≤ (2 * roundDiv n d + 1) * d ∧ 2 * roundDiv n d * d ≤ 2 * n + d := by
  have hsplit := Nat.div_add_mod n d
  have hrest := Nat.mod_lt n hd
  unfold roundDiv
  dsimp only
  generalize n / d = q, n % d = r at hsplit hrest ⊢
  subst hsplit
  split
  · rename_i hdown
    have hsmall : 2 * r ≤ d := by
      simp only [Bool.or_eq_true, decide_eq_true_eq, Bool.and_eq_true, beq_iff_eq] at hdown
      omega
    constructor <;> nlinarith
  · rename_i hup
    have hlarge : d ≤ 2 * r := by
      simp only [Bool.or_eq_true, decide_eq_true_eq] at hup
      omega
    constructor <;> nlinarith

/-- The nearest whole number is at most one half away. -/
theorem abs_roundDiv_sub_le (n : Nat) {d : Nat} (hd : 0 < d) :
    |(roundDiv n d : Rat) - n / d| ≤ 1 / 2 := by
  obtain ⟨hlow, hhigh⟩ := roundDiv_close n hd
  have hd' : (0 : Rat) < d := by exact_mod_cast hd
  have hlow' : (2 * n : Rat) ≤ (2 * roundDiv n d + 1) * d := by exact_mod_cast hlow
  have hhigh' : (2 * roundDiv n d * d : Rat) ≤ 2 * n + d := by exact_mod_cast hhigh
  have hn : (n : Rat) / d * d = n := div_mul_cancel₀ _ hd'.ne'
  rw [abs_le]
  constructor <;> nlinarith

/-! ## powers of two -/

theorem zpow_of_nonneg {e : Int} (h : 0 ≤ e) : (2 : Rat) ^ e = powTwo e.toNat := by
  obtain ⟨k, rfl⟩ := Int.eq_ofNat_of_zero_le h
  rw [Int.toNat_natCast, zpow_natCast]
  exact (Nat.cast_pow 2 k).symm

theorem zpow_of_neg {e : Int} (h : ¬0 ≤ e) :
    (2 : Rat) ^ e = (powTwo (-e).toNat : Rat)⁻¹ := by
  rw [← zpow_of_nonneg (by omega : 0 ≤ -e), zpow_neg, inv_inv]

theorem powTwo_pos (k : Nat) : 0 < powTwo k := Nat.pow_pos (by decide)

section Quotient

variable {n d : Nat} (hn : 0 < n) (hd : 0 < d)
include hn hd

omit hd in
/-- The logarithms of numerator and denominator are exact to one place. -/
theorem zpow_log2_sub_le : (2 : Rat) ^ ((n.log2 : Int) - d.log2 - 1) * d ≤ n := by
  have hlow : (2 : Rat) ^ (n.log2 : Int) ≤ n := by
    rw [zpow_natCast]
    exact_mod_cast Nat.log2_self_le hn.ne'
  have hhigh : (d : Rat) ≤ 2 ^ ((d.log2 : Int) + 1) := by
    rw [← Nat.cast_succ, zpow_natCast]
    exact_mod_cast Nat.lt_log2_self.le
  calc (2 : Rat) ^ ((n.log2 : Int) - d.log2 - 1) * d
      ≤ 2 ^ ((n.log2 : Int) - d.log2 - 1) * 2 ^ ((d.log2 : Int) + 1) := by gcongr
    _ = 2 ^ (n.log2 : Int) := by
        rw [← zpow_add₀ (by norm_num)]
        congr 1
        ring
    _ ≤ n := hlow

/-- The first bit of a quotient is not above it. -/
theorem zpow_log2Div_le : (2 : Rat) ^ log2Div n d ≤ n / d := by
  have hd' : (0 : Rat) < d := by exact_mod_cast hd
  have hbelow := zpow_log2_sub_le (d := d) hn
  rw [le_div_iff₀ hd']
  unfold log2Div
  dsimp only
  generalize (n.log2 : Int) - d.log2 = k at hbelow ⊢
  by_cases hk : 0 ≤ k
  · simp only [hk, if_true]
    split
    · rename_i hfits
      rw [zpow_of_nonneg hk, mul_comm]
      exact_mod_cast hfits
    · exact hbelow
  · simp only [hk, if_false]
    split
    · rename_i hfits
      have hpow : (0 : Rat) < powTwo (-k).toNat := by exact_mod_cast powTwo_pos _
      rw [zpow_of_neg hk, inv_mul_le_iff₀ hpow, mul_comm]
      exact_mod_cast hfits
    · exact hbelow

/-- The last bit of a double near a quotient is a small part of it, or of one where it is small. -/
theorem zpow_lastBit_le : (2 : Rat) ^ lastBit n d ≤ (n / d + 1) * 2 ^ (-52 : Int) := by
  have hfirst := zpow_log2Div_le hn hd
  have hquotient : (0 : Rat) ≤ n / d := by positivity
  have hplace : (0 : Rat) < 2 ^ (-52 : Int) := by positivity
  unfold lastBit
  rcases max_cases (log2Div n d - 52) (-1074) with ⟨hmax, -⟩ | ⟨hmax, -⟩
  · rw [hmax, sub_eq_add_neg, zpow_add₀ (by norm_num)]
    gcongr
    linarith
  · have hlowest : (2 : Rat) ^ (-1074 : Int) ≤ 2 ^ (-52 : Int) :=
      zpow_le_zpow_right₀ (by norm_num) (by norm_num)
    rw [hmax]
    exact hlowest.trans (le_mul_of_one_le_left hplace.le (by linarith))

omit hn in
/-- The number of units is the quotient in units of the last bit, to the nearest whole number. -/
theorem abs_units_sub_le (e : Int) :
    |(units n d e : Rat) * 2 ^ e - n / d| ≤ 2 ^ e / 2 := by
  have hunit : (0 : Rat) < 2 ^ e := by positivity
  have hscaled : |(units n d e : Rat) - n / d / 2 ^ e| ≤ 1 / 2 := by
    unfold units
    by_cases he : 0 ≤ e
    · rw [if_pos he]
      have hclose := abs_roundDiv_sub_le n (Nat.mul_pos hd (powTwo_pos e.toNat))
      rw [Nat.cast_mul, ← zpow_of_nonneg he, ← div_div] at hclose
      exact hclose
    · rw [if_neg he]
      have hclose := abs_roundDiv_sub_le (n * powTwo (-e).toNat) hd
      have hpow := zpow_of_neg he
      rw [Nat.cast_mul, mul_div_right_comm] at hclose
      rw [hpow, div_inv_eq_mul]
      exact hclose
  have hsplit : (units n d e : Rat) * 2 ^ e - n / d = (units n d e - n / d / 2 ^ e) * 2 ^ e := by
    field_simp
  rw [hsplit, abs_mul, abs_of_pos hunit]
  nlinarith

end Quotient

/-! ## rounding -/

theorem abs_eq_div (q : Rat) : |q| = q.num.natAbs / q.den := by
  rw [Rat.abs_def, Rat.divInt_eq_div, Int.cast_natCast, Int.cast_natCast]

/-- The error of a rounded quotient is at most half of the last bit. -/
theorem abs_round_sub_le_lastBit {q : Rat} (hq : q.num ≠ 0) :
    |round q - q| ≤ 2 ^ lastBit q.num.natAbs q.den / 2 := by
  have hclose := abs_units_sub_le (n := q.num.natAbs) q.den_pos (lastBit q.num.natAbs q.den)
  rw [← abs_eq_div] at hclose
  unfold round
  rw [if_neg hq]
  dsimp only
  generalize lastBit q.num.natAbs q.den = e at hclose ⊢
  generalize units q.num.natAbs q.den e = m at hclose ⊢
  have hmagnitude : (if 0 ≤ e then ((m * powTwo e.toNat : Nat) : Rat)
      else mkRat m (powTwo (-e).toNat)) = m * 2 ^ e := by
    by_cases he : 0 ≤ e
    · rw [if_pos he, zpow_of_nonneg he, Nat.cast_mul]
    · rw [if_neg he, zpow_of_neg he, Rat.mkRat_eq_div]
      rfl
  rw [hmagnitude]
  split
  · rename_i hneg
    have habs : |q| = -q := abs_of_neg (Rat.num_neg.1 hneg)
    rw [habs] at hclose
    rw [← abs_neg]
    convert hclose using 2
    ring
  · rename_i hpos
    have habs : |q| = q := abs_of_nonneg (Rat.num_nonneg.1 (not_lt.1 hpos))
    rw [habs] at hclose
    exact hclose

/-- The error of rounding is a small part of the value, or of one where the value is small. -/
theorem abs_round_sub_le (q : Rat) : |round q - q| ≤ (|q| + 1) / 2 ^ 53 := by
  by_cases hq : q.num = 0
  · obtain rfl : q = 0 := Rat.num_eq_zero.1 hq
    rw [round, if_pos hq, sub_zero, abs_zero]
    positivity
  · have hnum : 0 < q.num.natAbs := Int.natAbs_pos.2 hq
    have hbit := zpow_lastBit_le hnum q.den_pos
    rw [← abs_eq_div] at hbit
    calc |round q - q| ≤ 2 ^ lastBit q.num.natAbs q.den / 2 := abs_round_sub_le_lastBit hq
      _ ≤ (|q| + 1) * 2 ^ (-52 : Int) / 2 := by gcongr
      _ = (|q| + 1) / 2 ^ 53 := by
          rw [zpow_neg]
          ring

end Chip8.Binary64
