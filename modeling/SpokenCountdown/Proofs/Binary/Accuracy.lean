import Mathlib.Algebra.Order.Round
import Mathlib.Data.Rat.Floor
import SpokenCountdown.Proofs.Binary.Order

/-!
# What rounding loses

A ratio below a power of two is off by at most half a unit of the last place
that the power leaves (`ofRatio_error`). Rounding such a number to an integer
then gives the integer of the exact ratio, unless that lies in the middle of two
(`round_near`).
-/

namespace SpokenCountdown.Binary

section
variable {n d : Nat} {k : Int} {f : Format} {negative : Bool}

-- ---------------------------------------------------------------------------
-- One rounding
-- ---------------------------------------------------------------------------

theorem roundQuotient_error (hd : 0 < d) : |(roundQuotient n d : ℚ) - n / d| ≤ 1 / 2 := by
  have hd0 : (0 : ℚ) < d := by exact_mod_cast hd
  generalize hq : roundQuotient n d = q
  have habove : 2 * n ≤ (2 * q + 1) * d := by
    rcases (roundQuotient_le_iff hd).mp hq.le with hlt | ⟨heq, -⟩
    · exact hlt.le
    · exact heq.le
  have hbelow : 2 * q * d ≤ 2 * n + d := by
    cases q with
    | zero => omega
    | succ p =>
      have hnot : ¬ roundQuotient n d ≤ p := by omega
      rw [roundQuotient_le_iff hd, not_or] at hnot
      have hsplit : 2 * (p + 1) * d = (2 * p + 1) * d + d := by ring
      omega
  rw [abs_le, neg_le_sub_iff_le_add, div_le_iff₀ hd0, sub_le_iff_le_add, ← sub_le_iff_le_add',
    le_div_iff₀ hd0]
  have habove : (2 * n : ℚ) ≤ (2 * q + 1) * d := by exact_mod_cast habove
  have hbelow : (2 * q * d : ℚ) ≤ 2 * n + d := by exact_mod_cast hbelow
  constructor <;> linarith

theorem significand_error (f : Format) (n : Nat) (hd : d ≠ 0) :
    |(f.significand n d : ℚ) * 2 ^ f.exponent n d - n / d| ≤ 2 ^ f.exponent n d / 2 := by
  have hpos := scaled_pos (n := n) (Nat.pos_of_ne_zero hd) (-f.exponent n d)
  have hpow : (0 : ℚ) < 2 ^ f.exponent n d := zpow_pos two_pos _
  have hround := roundQuotient_error (n := (scaled n d (-f.exponent n d)).1) hpos
  rw [scaled_ratio, zpow_neg] at hround
  have hunit : (f.significand n d : ℚ) * 2 ^ f.exponent n d - n / d =
      (f.significand n d - n / d * (2 ^ f.exponent n d)⁻¹) * 2 ^ f.exponent n d := by
    field_simp
  rw [hunit, abs_mul, abs_of_pos hpow, div_eq_inv_mul (2 ^ _) 2, ← one_div (2 : ℚ)]
  exact mul_le_mul_of_nonneg_right hround hpow.le

theorem exponent_le (hf : f.Proper) (hn : n ≠ 0) (hd : d ≠ 0) (hlt : (n : ℚ) / d < 2 ^ k)
    (hmin : f.minExponent ≤ k - f.precision) : f.exponent n d ≤ k - f.precision := by
  have hlog : floorLog n d < k :=
    (zpow_lt_zpow_iff_right₀ (one_lt_two (α := ℚ))).mp ((floorLog_spec hn hd).1.trans_lt hlt)
  have htwo := hf.twoDigits
  unfold Format.exponent
  omega

theorem ofRatio_error (hf : f.Proper) (hd : d ≠ 0) (hlt : (n : ℚ) / d < 2 ^ k)
    (hmin : f.minExponent ≤ k - f.precision)
    (hfinite : (ofRatio f negative n d).isFinite = true) :
    |(ofRatio f negative n d).size - n / d| ≤ 2 ^ (k - f.precision) / 2 := by
  by_cases hn : n = 0
  · rw [hn, ofRatio_zero, size_finite, Nat.cast_zero, zero_mul, zero_div, sub_zero, abs_zero]
    positivity
  obtain ⟨-, hsize⟩ | ⟨hinf, -⟩ := ofRatio_cases negative hf hn hd
  case inr => rw [hinf] at hfinite; cases hfinite
  rw [hsize]
  refine (significand_error f n hd).trans ?_
  gcongr
  · exact one_le_two
  · exact exponent_le hf hn hd hlt hmin

-- ---------------------------------------------------------------------------
-- The nearest integer
-- ---------------------------------------------------------------------------

theorem roundQuotientUp_eq_round (n d : Nat) (hd : 0 < d) :
    (roundQuotientUp n d : Int) = round (n / d : ℚ) := by
  have hd0 : (d : ℚ) ≠ 0 := by exact_mod_cast hd.ne'
  have hhalf : (n / d + 1 / 2 : ℚ) = (2 * n + d : Nat) / (2 * d : Nat) := by
    push_cast
    field_simp
  rw [round_eq, hhalf, Rat.floor_natCast_div_natCast]
  rfl

theorem roundedMagnitude_eq_round (x : Binary) : (x.roundedMagnitude : Int) = round x.size :=
  roundQuotientUp_eq_round _ _ x.magnitude_pos

theorem round_bounds (x : ℚ) (hd : 0 < d) :
    2 * d * round x ≤ 2 * (d * x) + d ∧ 2 * (d * x) + d < 2 * d * (round x + 1) := by
  have hd0 : (0 : ℚ) < 2 * d := by exact_mod_cast Nat.mul_pos two_pos hd
  have hfloor := Int.floor_eq_iff.mp (round_eq x).symm
  have hlow := mul_le_mul_of_nonneg_left hfloor.1 hd0.le
  have hhigh := mul_lt_mul_of_pos_left hfloor.2 hd0
  constructor <;> linarith

/-- A number that is nearer to a ratio than half the inverse of its denominator is
rounded to the same integer. Only where the ratio lies in the middle of two
integers it can be rounded to the lower one. -/
theorem round_near {x : ℚ} (hd : 0 < d) (h : |x - n / d| < 1 / (2 * d)) :
    round x = round (n / d : ℚ) ∨ (round x : ℚ) + 1 / 2 = n / d := by
  have hd0 : (0 : ℚ) < d := by exact_mod_cast hd
  have hn : (d * (n / d) : ℚ) = n := by field_simp
  have hclose : 2 * n - 1 < 2 * (d * x) ∧ 2 * (d * x) < 2 * n + 1 := by
    rw [lt_div_iff₀ (by positivity), ← abs_of_pos (by positivity : (0 : ℚ) < 2 * d), ← abs_mul,
      abs_lt] at h
    constructor <;> linarith
  have hx := round_bounds x hd
  have hratio := round_bounds (n / d : ℚ) hd
  rw [hn] at hratio
  generalize round x = k at *
  generalize round (n / d : ℚ) = m at *
  -- both integers against the exact ratio, all of it multiplied out
  have hklow : 2 * d * k < 2 * (n : Int) + d + 1 := by
    have hlt : (2 * d * k : ℚ) < 2 * n + d + 1 := by linarith
    exact_mod_cast hlt
  have hkhigh : 2 * (n : Int) + d < 2 * d * (k + 1) + 1 := by
    have hlt : (2 * n + d : ℚ) < 2 * d * (k + 1) + 1 := by linarith
    exact_mod_cast hlt
  have hmlow : 2 * d * m ≤ 2 * (n : Int) + d := by exact_mod_cast hratio.1
  have hmhigh : 2 * (n : Int) + d < 2 * d * (m + 1) := by exact_mod_cast hratio.2
  have hkm : k < m + 1 :=
    lt_of_mul_lt_mul_left ((Int.lt_add_one_iff.mp hklow).trans_lt hmhigh) (by positivity)
  have hmk : m ≤ k + 1 :=
    le_of_mul_le_mul_left (hmlow.trans (Int.lt_add_one_iff.mp hkhigh)) (by positivity)
  rcases hmk.eq_or_lt with rfl | hlt
  · have htie : (2 * n + d : ℚ) = 2 * d * (k + 1) := by
      exact_mod_cast (Int.lt_add_one_iff.mp hkhigh).antisymm hmlow
    refine .inr ?_
    rw [eq_div_iff hd0.ne']
    linarith
  · exact .inl (by omega)

end

end SpokenCountdown.Binary
