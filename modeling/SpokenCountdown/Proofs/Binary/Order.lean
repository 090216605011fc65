import Mathlib.Algebra.Order.Field.Basic
import Mathlib.Algebra.Order.Field.Power
import Mathlib.Data.Rat.Cast.Order
import Mathlib.Tactic.FieldSimp
import Mathlib.Tactic.Linarith
import Mathlib.Tactic.Ring
import SpokenCountdown.Binary

/-!
# Rounding keeps the order

Of two ratios the smaller one is not rounded to the larger number
(`size_ofRatio_mono`). Where both have the same exponent this is so of the
rounded significands; where they have not, a power of two lies between them that
is a number of the format.
-/

namespace SpokenCountdown.Binary

structure Format.Proper (f : Format) : Prop where
  twoDigits : 2 ≤ f.precision
  room : f.minExponent < f.maxExponent

theorem Format.double_proper : Format.double.Proper := ⟨by decide, by decide⟩

def size (x : Binary) : ℚ :=
  x.magnitude.1 / x.magnitude.2

section
variable {n d n' d' k : Nat} {e : Int} {f : Format} {negative negative' : Bool}

-- ---------------------------------------------------------------------------
-- The rounded quotient
-- ---------------------------------------------------------------------------

theorem roundQuotient_le_iff (hd : 0 < d) : roundQuotient n d ≤ k ↔
    2 * n < (2 * k + 1) * d ∨ 2 * n = (2 * k + 1) * d ∧ k % 2 = 0 := by
  have hdiv := Nat.div_add_mod n d
  have hmod := Nat.mod_lt n hd
  have hodd : (2 * k + 1) * d = 2 * (d * k) + d := by ring
  simp only [roundQuotient]
  generalize n / d = q, n % d = r at *
  rcases Nat.lt_trichotomy k q with hlt | rfl | hgt
  · obtain ⟨j, rfl⟩ := Nat.exists_eq_add_of_lt hlt
    have hsum : d * (k + j + 1) = d * k + d * j + d := by ring
    split_ifs <;> omega
  · split_ifs <;> omega
  · obtain ⟨j, rfl⟩ := Nat.exists_eq_add_of_lt hgt
    have hsum : d * (q + j + 1) = d * q + d * j + d := by ring
    split_ifs <;> omega

theorem roundQuotient_mono (hd : 0 < d) (hd' : 0 < d') (h : (n : ℚ) / d ≤ n' / d') :
    roundQuotient n d ≤ roundQuotient n' d' := by
  have hcross : n * d' ≤ n' * d := by
    rw [div_le_div_iff₀ (by exact_mod_cast hd) (by exact_mod_cast hd')] at h
    exact_mod_cast h
  rw [roundQuotient_le_iff hd]
  generalize hk : roundQuotient n' d' = k
  rcases (roundQuotient_le_iff hd').mp hk.le with hlt | ⟨heq, heven⟩
  · refine .inl (Nat.lt_of_mul_lt_mul_right (a := d') ?_)
    calc 2 * n * d' = 2 * (n * d') := by ring
      _ ≤ 2 * (n' * d) := Nat.mul_le_mul_left 2 hcross
      _ = 2 * n' * d := by ring
      _ < (2 * k + 1) * d' * d := Nat.mul_lt_mul_of_pos_right hlt hd
      _ = (2 * k + 1) * d * d' := by ring
  · have hle : 2 * n ≤ (2 * k + 1) * d := by
      refine Nat.le_of_mul_le_mul_right (c := d') ?_ hd'
      calc 2 * n * d' = 2 * (n * d') := by ring
        _ ≤ 2 * (n' * d) := Nat.mul_le_mul_left 2 hcross
        _ = (2 * k + 1) * d' * d := by rw [← heq]; ring
        _ = (2 * k + 1) * d * d' := by ring
    exact (Nat.lt_or_eq_of_le hle).imp_right fun heq => ⟨heq, heven⟩

theorem roundQuotient_one (n : Nat) : roundQuotient n 1 = n := by
  simp [roundQuotient, Nat.mod_one]

theorem roundQuotientUp_mono (hd : 0 < d) (hd' : 0 < d') (h : (n : ℚ) / d ≤ n' / d') :
    roundQuotientUp n d ≤ roundQuotientUp n' d' := by
  have hcross : n * d' ≤ n' * d := by
    rw [div_le_div_iff₀ (by exact_mod_cast hd) (by exact_mod_cast hd')] at h
    exact_mod_cast h
  unfold roundQuotientUp
  rw [Nat.le_div_iff_mul_le (by omega)]
  have hfloor := Nat.div_mul_le_self (2 * n + d) (2 * d)
  generalize (2 * n + d) / (2 * d) = q at *
  refine Nat.le_of_mul_le_mul_right (c := d) ?_ hd
  calc q * (2 * d') * d = q * (2 * d) * d' := by ring
    _ ≤ (2 * n + d) * d' := Nat.mul_le_mul_right d' hfloor
    _ = 2 * (n * d') + d * d' := by ring
    _ ≤ 2 * (n' * d) + d * d' := by omega
    _ = (2 * n' + d') * d := by ring

-- ---------------------------------------------------------------------------
-- The exponent
-- ---------------------------------------------------------------------------

theorem scaled_pos (hd : 0 < d) (e : Int) : 0 < (scaled n d e).2 :=
  Nat.mul_pos hd (Nat.two_pow_pos _)

theorem scaled_ratio (n d : Nat) (e : Int) :
    ((scaled n d e).1 : ℚ) / (scaled n d e).2 = n / d * 2 ^ e := by
  obtain ⟨k, rfl | rfl⟩ := e.eq_nat_or_neg
  · simp [scaled]
    ring
  · simp [scaled]
    field_simp

theorem ratio_between (hn : n ≠ 0) (hd : d ≠ 0) :
    (2 : ℚ) ^ ((n.log2 : Int) - d.log2 - 1) < n / d ∧
      (n : ℚ) / d < 2 ^ ((n.log2 : Int) - d.log2 + 1) := by
  have hd0 : (0 : ℚ) < d := by exact_mod_cast Nat.pos_of_ne_zero hd
  have hnl : (2 : ℚ) ^ n.log2 ≤ n := by exact_mod_cast Nat.log2_self_le hn
  have hnu : (n : ℚ) < 2 ^ (n.log2 + 1) := by exact_mod_cast Nat.lt_log2_self
  have hdl : (2 : ℚ) ^ d.log2 ≤ d := by exact_mod_cast Nat.log2_self_le hd
  have hdu : (d : ℚ) < 2 ^ (d.log2 + 1) := by exact_mod_cast Nat.lt_log2_self
  constructor
  · rw [lt_div_iff₀ hd0]
    calc (2 : ℚ) ^ ((n.log2 : Int) - d.log2 - 1) * d
        < 2 ^ ((n.log2 : Int) - d.log2 - 1) * 2 ^ (d.log2 + 1) := by gcongr
      _ = 2 ^ n.log2 := by
        rw [← zpow_natCast, ← zpow_natCast, ← zpow_add₀ two_ne_zero]
        congr 1
        push_cast
        ring
      _ ≤ n := hnl
  · rw [div_lt_iff₀ hd0]
    calc (n : ℚ) < 2 ^ (n.log2 + 1) := hnu
      _ = 2 ^ ((n.log2 : Int) - d.log2 + 1) * 2 ^ d.log2 := by
        rw [← zpow_natCast, ← zpow_natCast, ← zpow_add₀ two_ne_zero]
        congr 1
        push_cast
        ring
      _ ≤ 2 ^ ((n.log2 : Int) - d.log2 + 1) * d := by gcongr

theorem floorLog_spec (hn : n ≠ 0) (hd : d ≠ 0) :
    (2 : ℚ) ^ floorLog n d ≤ n / d ∧ (n : ℚ) / d < 2 ^ (floorLog n d + 1) := by
  obtain ⟨hlow, hhigh⟩ := ratio_between hn hd
  simp only [floorLog]
  generalize (n.log2 : Int) - d.log2 = e at *
  have hpos : (0 : ℚ) < (scaled n d (-e)).2 := by exact_mod_cast scaled_pos (Nat.pos_of_ne_zero hd) _
  have hratio := scaled_ratio n d (-e)
  have hpow : (0 : ℚ) < 2 ^ e := zpow_pos two_pos e
  have hiff : (scaled n d (-e)).2 ≤ (scaled n d (-e)).1 ↔ (2 : ℚ) ^ e ≤ n / d := by
    rw [← Nat.cast_le (α := ℚ), ← one_le_div hpos, hratio, zpow_neg, ← div_eq_mul_inv,
      one_le_div hpow]
  split_ifs with h
  · exact ⟨hiff.mp h, hhigh⟩
  · refine ⟨hlow.le, ?_⟩
    rw [sub_add_cancel]
    exact lt_of_not_ge fun hle => h (hiff.mpr hle)

theorem floorLog_mono (hn : n ≠ 0) (hd : d ≠ 0) (hn' : n' ≠ 0) (hd' : d' ≠ 0)
    (h : (n : ℚ) / d ≤ n' / d') : floorLog n d ≤ floorLog n' d' := by
  have hlow := (floorLog_spec hn hd).1
  have hhigh := (floorLog_spec hn' hd').2
  have hlt := (zpow_lt_zpow_iff_right₀ (one_lt_two (α := ℚ))).mp
    (hlow.trans_lt (h.trans_lt hhigh))
  omega

def Format.exponent (f : Format) (n d : Nat) : Int :=
  max f.minExponent (floorLog n d - (f.precision - 1 : Nat))

/-- The significand before it is brought to the full length again. -/
def Format.significand (f : Format) (n d : Nat) : Nat :=
  roundQuotient (scaled n d (-f.exponent n d)).1 (scaled n d (-f.exponent n d)).2

theorem significand_le (f : Format) (hf : f.Proper) (hn : n ≠ 0) (hd : d ≠ 0) :
    f.significand n d ≤ 2 ^ f.precision := by
  have hpow : (0 : ℚ) < 2 ^ f.exponent n d := zpow_pos two_pos _
  have hbelow : (n : ℚ) / d ≤ 2 ^ f.precision * 2 ^ f.exponent n d := by
    refine (floorLog_spec hn hd).2.le.trans ?_
    rw [← zpow_natCast, ← zpow_add₀ two_ne_zero]
    refine zpow_le_zpow_right₀ one_le_two ?_
    have htwo := hf.twoDigits
    unfold Format.exponent
    omega
  rw [← roundQuotient_one (2 ^ f.precision)]
  refine roundQuotient_mono (scaled_pos (Nat.pos_of_ne_zero hd) _) Nat.one_pos ?_
  rw [scaled_ratio, zpow_neg, ← div_eq_mul_inv, div_le_iff₀ hpow]
  simpa using hbelow

/-- Above the least exponent the significand has the full length. -/
theorem le_significand (f : Format) (hn : n ≠ 0) (hd : d ≠ 0)
    (hmin : f.minExponent < f.exponent n d) : 2 ^ (f.precision - 1) ≤ f.significand n d := by
  have hpow : (0 : ℚ) < 2 ^ f.exponent n d := zpow_pos two_pos _
  have habove : 2 ^ (f.precision - 1) * 2 ^ f.exponent n d ≤ (n : ℚ) / d := by
    refine le_trans ?_ (floorLog_spec hn hd).1
    rw [← zpow_natCast, ← zpow_add₀ two_ne_zero]
    refine zpow_le_zpow_right₀ one_le_two ?_
    unfold Format.exponent at hmin ⊢
    omega
  rw [← roundQuotient_one (2 ^ (f.precision - 1))]
  refine roundQuotient_mono Nat.one_pos (scaled_pos (Nat.pos_of_ne_zero hd) _) ?_
  rw [scaled_ratio, zpow_neg, ← div_eq_mul_inv, le_div_iff₀ hpow]
  simpa using habove

-- ---------------------------------------------------------------------------
-- The rounded number
-- ---------------------------------------------------------------------------

theorem size_finite (negative : Bool) (significand : Nat) (exponent : Int) :
    (finite negative significand exponent).size = significand * 2 ^ exponent := by
  rw [size, magnitude, scaled_ratio, Nat.cast_one, div_one]

theorem size_infinite (negative : Bool) : (infinite negative).size = 0 := by
  simp [size, magnitude]

theorem size_nonneg (x : Binary) : 0 ≤ x.size :=
  div_nonneg (Nat.cast_nonneg _) (Nat.cast_nonneg _)

def value (x : Binary) : ℚ :=
  if x.isNegative then -x.size else x.size

theorem value_eq_size {x : Binary} (h : x.isNegative = false) : x.value = x.size := by
  rw [value, h, if_neg Bool.false_ne_true]

theorem isPositive_iff {x : Binary} : x.isPositive = true ↔ x.isFinite = true ∧ 0 < x.value := by
  cases x with
  | nan negative | infinite negative => simp [isPositive, isFinite]
  | finite negative significand exponent =>
    have hpow : (0 : ℚ) < 2 ^ exponent := zpow_pos two_pos exponent
    cases negative with
    | true =>
      have hsize := size_nonneg (finite true significand exponent)
      simpa [isPositive, isFinite, value, isNegative] using hsize
    | false =>
      rw [value_eq_size rfl, size_finite, mul_pos_iff_of_pos_right hpow]
      simp [isPositive, isFinite, Nat.pos_iff_ne_zero]

/-- A significand that is too long by a digit becomes the shortest of full length. -/
theorem Format.Proper.carry (hf : f.Proper) (e : Int) :
    ((2 ^ (f.precision - 1) : Nat) : ℚ) * 2 ^ (e + 1) = ((2 ^ f.precision : Nat) : ℚ) * 2 ^ e := by
  obtain ⟨p, hp⟩ := Nat.exists_eq_add_of_le hf.twoDigits
  rw [hp, zpow_add_one₀ two_ne_zero, show 2 + p - 1 = p + 1 by omega,
    show 2 + p = p + 1 + 1 by omega]
  push_cast
  ring

theorem ofRatio_eq (f : Format) (negative : Bool) (hn : n ≠ 0) (hd : d ≠ 0) :
    ofRatio f negative n d =
      if f.significand n d = 2 ^ f.precision then
        if f.maxExponent < f.exponent n d + 1 then .infinite negative
        else .finite negative (2 ^ (f.precision - 1)) (f.exponent n d + 1)
      else if f.significand n d = 0 then .finite negative 0 0
      else if f.maxExponent < f.exponent n d then .infinite negative
      else .finite negative (f.significand n d) (f.exponent n d) := by
  have hpow : Nat.pow 2 (f.precision - 1) ≠ 0 := Nat.ne_of_gt (Nat.two_pow_pos _)
  rw [ofRatio, if_neg (by simp [hn, hd])]
  by_cases hfull : f.significand n d = 2 ^ f.precision
  · have hif : roundQuotient (scaled n d (-f.exponent n d)).1 (scaled n d (-f.exponent n d)).2 =
        Nat.pow 2 f.precision := hfull
    simp only [Format.exponent] at hif
    simp only [hif, ↓reduceIte, hpow, if_pos hfull]
    rfl
  · have hif : ¬ roundQuotient (scaled n d (-f.exponent n d)).1
        (scaled n d (-f.exponent n d)).2 = Nat.pow 2 f.precision := hfull
    simp only [Format.exponent] at hif
    simp only [hif, ↓reduceIte, if_neg hfull]
    rfl

theorem ofRatio_cases (negative : Bool) (hf : f.Proper) (hn : n ≠ 0) (hd : d ≠ 0) :
    ((ofRatio f negative n d).isFinite = true ∧
      (ofRatio f negative n d).size = f.significand n d * 2 ^ f.exponent n d) ∨
    (ofRatio f negative n d = .infinite negative ∧ f.maxExponent ≤ f.exponent n d) := by
  rw [ofRatio_eq f negative hn hd]
  split_ifs with hfull hover hzero hover
  · exact .inr ⟨rfl, by omega⟩
  · exact .inl ⟨rfl, by rw [size_finite, hf.carry, hfull]⟩
  · exact .inl ⟨rfl, by rw [size_finite, hzero]; simp⟩
  · exact .inr ⟨rfl, by omega⟩
  · exact .inl ⟨rfl, size_finite ..⟩

theorem ofRatio_zero : ofRatio f negative 0 d = .finite negative 0 0 :=
  if_pos (.inl rfl)

theorem exponent_mono (f : Format) (hn : n ≠ 0) (hd : d ≠ 0) (hn' : n' ≠ 0) (hd' : d' ≠ 0)
    (h : (n : ℚ) / d ≤ n' / d') : f.exponent n d ≤ f.exponent n' d' := by
  have hlog := floorLog_mono hn hd hn' hd' h
  unfold Format.exponent
  omega

theorem size_ofRatio_mono (hf : f.Proper) (hd : d ≠ 0) (hd' : d' ≠ 0)
    (h : (n : ℚ) / d ≤ n' / d') (hfinite : (ofRatio f negative' n' d').isFinite = true) :
    (ofRatio f negative n d).size ≤ (ofRatio f negative' n' d').size := by
  have hdpos : (0 : ℚ) < d := by exact_mod_cast Nat.pos_of_ne_zero hd
  have hdpos' : (0 : ℚ) < d' := by exact_mod_cast Nat.pos_of_ne_zero hd'
  by_cases hn : n = 0
  · rw [hn, ofRatio_zero, size_finite, Nat.cast_zero, zero_mul]
    exact size_nonneg _
  have hn' : n' ≠ 0 := by
    rintro rfl
    have hpos : (0 : ℚ) < n / d := div_pos (by exact_mod_cast Nat.pos_of_ne_zero hn) hdpos
    rw [Nat.cast_zero, zero_div] at h
    exact absurd h (not_le.mpr hpos)
  obtain ⟨-, hsize'⟩ | ⟨hinf, -⟩ := ofRatio_cases negative' hf hn' hd'
  case inr => rw [hinf] at hfinite; cases hfinite
  obtain ⟨-, hsize⟩ | ⟨hinf, -⟩ := ofRatio_cases negative hf hn hd
  case inr =>
    rw [hinf, size_infinite]
    exact size_nonneg _
  rw [hsize, hsize']
  rcases (exponent_mono f hn hd hn' hd' h).eq_or_lt with heq | hlt
  · have hsignificand : f.significand n d ≤ f.significand n' d' := by
      unfold Format.significand
      refine roundQuotient_mono (scaled_pos (Nat.pos_of_ne_zero hd) _)
        (scaled_pos (Nat.pos_of_ne_zero hd') _) ?_
      rw [scaled_ratio, scaled_ratio, heq]
      gcongr
    rw [heq]
    gcongr
  · -- the power of two at which the greater exponent takes over lies between
    have hfull := le_significand f hn' hd'
      (lt_of_le_of_lt (le_max_left f.minExponent _) hlt)
    calc (f.significand n d : ℚ) * 2 ^ f.exponent n d
        ≤ (2 ^ f.precision : Nat) * 2 ^ f.exponent n d := by
          gcongr
          exact significand_le f hf hn hd
      _ = (2 ^ (f.precision - 1) : Nat) * 2 ^ (f.exponent n d + 1) := (hf.carry _).symm
      _ ≤ (2 ^ (f.precision - 1) : Nat) * 2 ^ f.exponent n' d' := by
          gcongr
          · exact one_le_two
          · exact hlt
      _ ≤ f.significand n' d' * 2 ^ f.exponent n' d' := by
          gcongr

theorem isFinite_ofRatio (negative : Bool) (hf : f.Proper) (hd : d ≠ 0)
    (h : (n : ℚ) / d ≤ 2 ^ f.maxExponent) : (ofRatio f negative n d).isFinite = true := by
  by_cases hn : n = 0
  · rw [hn, ofRatio_zero]
    rfl
  obtain ⟨hfinite, -⟩ | ⟨-, hover⟩ := ofRatio_cases negative hf hn hd
  · exact hfinite
  · have hlog := (zpow_le_zpow_iff_right₀ (one_lt_two (α := ℚ))).mp
      ((floorLog_spec hn hd).1.trans h)
    have htwo := hf.twoDigits
    have hroom := hf.room
    unfold Format.exponent at hover
    omega

theorem isNegative_ofRatio (f : Format) (negative : Bool) (n d : Nat) :
    (ofRatio f negative n d).isNegative = negative := by
  unfold ofRatio
  dsimp only
  split_ifs <;> rfl

-- ---------------------------------------------------------------------------
-- Products
-- ---------------------------------------------------------------------------

theorem magnitude_pos (x : Binary) : 0 < x.magnitude.2 := by
  cases x with
  | finite negative significand exponent => exact scaled_pos Nat.one_pos exponent
  | nan | infinite => exact Nat.one_pos

theorem mul_eq_ofRatio (f : Format) {x y : Binary} (hx : x.isFinite = true)
    (hy : y.isFinite = true) : ∃ (negative : Bool) (n d : Nat), d ≠ 0 ∧ (n : ℚ) / d = x.size * y.size ∧
      mul f x y = ofRatio f negative n d := by
  have hpos := Nat.mul_pos x.magnitude_pos y.magnitude_pos
  refine ⟨x.isNegative != y.isNegative, x.magnitude.1 * y.magnitude.1,
    x.magnitude.2 * y.magnitude.2, Nat.ne_of_gt hpos, ?_, ?_⟩
  · rw [size, size, div_mul_div_comm]
    push_cast
    rfl
  · cases x <;> cases hx
    cases y <;> cases hy
    rfl

theorem roundedMagnitude_mono {x y : Binary} (h : x.size ≤ y.size) :
    x.roundedMagnitude ≤ y.roundedMagnitude :=
  roundQuotientUp_mono x.magnitude_pos y.magnitude_pos h

end

end SpokenCountdown.Binary
