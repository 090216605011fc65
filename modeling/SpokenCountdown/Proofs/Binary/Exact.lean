import SpokenCountdown.Proofs.Binary.Order

/-!
# What rounding does not change

A number in the form that rounding gives is rounded to itself: `ofRatio_exact`. It is its
own conversion then, and that of an equal number in any other format. In particular a
number in single precision is not changed by the way through double precision, where it
has more digits than it needs: `single_double`.
-/

namespace SpokenCountdown.Binary

/-- The significand is not too long, and of full length above the least exponent. -/
def InFormat (f : Format) : Binary → Prop
  | .finite _ significand exponent =>
    significand = 0 ∧ exponent = 0 ∨
      0 < significand ∧ significand < 2 ^ f.precision ∧ exponent ≤ f.maxExponent ∧
        (exponent = f.minExponent ∨
          f.minExponent ≤ exponent ∧ 2 ^ (f.precision - 1) ≤ significand)
  | _ => True

instance (f : Format) : DecidablePred (InFormat f)
  | .finite .. => inferInstanceAs (Decidable (_ ∧ _ ∨ _))
  | .nan _ | .infinite _ => inferInstanceAs (Decidable True)

theorem Format.single_proper : Format.single.Proper := ⟨by decide, by decide⟩

section
variable {n d s : Nat} {e : Int} {f : Format} {negative : Bool} {x y : Binary}

-- ---------------------------------------------------------------------------
-- One rounding
-- ---------------------------------------------------------------------------

theorem roundQuotient_mul (n : Nat) (h : 0 < d) : roundQuotient (n * d) d = n := by
  simp [roundQuotient, h]

theorem exponent_exact (hf : f.Proper) (hx : (finite negative s e).InFormat f) (hs : 0 < s)
    (hn : n ≠ 0) (hd : d ≠ 0) (h : (n : ℚ) / d = s * 2 ^ e) : f.exponent n d = e := by
  obtain ⟨hzero, -⟩ | ⟨-, hshort, -, hleast⟩ := hx
  · exact absurd hzero hs.ne'
  obtain ⟨hlow, hhigh⟩ := floorLog_spec hn hd
  rw [h] at hlow hhigh
  have hpow : (0 : ℚ) < 2 ^ e := zpow_pos two_pos e
  have htwo := hf.twoDigits
  have habove : floorLog n d < f.precision + e := by
    refine (zpow_lt_zpow_iff_right₀ (one_lt_two (α := ℚ))).mp (hlow.trans_lt ?_)
    rw [zpow_add₀ two_ne_zero, zpow_natCast]
    gcongr
    exact_mod_cast hshort
  unfold Format.exponent
  obtain rfl | ⟨hmin, hlong⟩ := hleast
  · omega
  · have hbelow : ((f.precision - 1 : Nat) : Int) + e < floorLog n d + 1 := by
      refine (zpow_lt_zpow_iff_right₀ (one_lt_two (α := ℚ))).mp (lt_of_le_of_lt ?_ hhigh)
      rw [zpow_add₀ two_ne_zero, zpow_natCast]
      gcongr
      exact_mod_cast hlong
    omega

theorem significand_exact (hd : d ≠ 0) (hexponent : f.exponent n d = e)
    (h : (n : ℚ) / d = s * 2 ^ e) : f.significand n d = s := by
  have hpos := scaled_pos (n := n) (Nat.pos_of_ne_zero hd) (-e)
  have hden : ((scaled n d (-e)).2 : ℚ) ≠ 0 := by exact_mod_cast hpos.ne'
  have hratio := scaled_ratio n d (-e)
  rw [h, mul_assoc, ← zpow_add₀ two_ne_zero, add_neg_cancel, zpow_zero, mul_one,
    div_eq_iff hden] at hratio
  have hnum : (scaled n d (-e)).1 = s * (scaled n d (-e)).2 := by exact_mod_cast hratio
  rw [Format.significand, hexponent, hnum, roundQuotient_mul s hpos]

theorem ofRatio_exact (hf : f.Proper) (hx : (finite negative s e).InFormat f) (hd : d ≠ 0)
    (h : (n : ℚ) / d = s * 2 ^ e) : ofRatio f negative n d = .finite negative s e := by
  have hd0 : (d : ℚ) ≠ 0 := by exact_mod_cast hd
  have hpow : (2 : ℚ) ^ e ≠ 0 := zpow_ne_zero e two_ne_zero
  have hsame : n = 0 ↔ s = 0 := by
    rw [← Nat.cast_eq_zero (R := ℚ), ← div_eq_zero_iff.trans (or_iff_left hd0), h,
      mul_eq_zero.trans (or_iff_left hpow), Nat.cast_eq_zero]
  rcases Nat.eq_zero_or_pos s with rfl | hs
  · obtain ⟨-, rfl⟩ | ⟨hpos, -⟩ := hx
    · rw [hsame.mpr rfl, ofRatio_zero]
    · exact absurd hpos (Nat.lt_irrefl 0)
  · have hn : n ≠ 0 := fun hzero => hs.ne' (hsame.mp hzero)
    have hexponent := exponent_exact hf hx hs hn hd h
    obtain ⟨hzero, -⟩ | ⟨-, hshort, hgreatest, -⟩ := hx
    · exact absurd hzero hs.ne'
    rw [ofRatio_eq f negative hn hd, significand_exact hd hexponent h, hexponent,
      if_neg hshort.ne, if_neg hs.ne', if_neg hgreatest.not_gt]

-- ---------------------------------------------------------------------------
-- Conversions
-- ---------------------------------------------------------------------------

theorem convert_exact (hf : f.Proper) (hx : x.InFormat f) (hfinite : x.isFinite = true)
    (hother : y.isFinite = true) (hsign : y.isNegative = x.isNegative) (hsize : y.size = x.size) :
    y.convert f = x := by
  cases x with
  | finite negative s e =>
    cases y with
    | finite other m k =>
      obtain rfl : other = negative := hsign
      have hratio : ((scaled m 1 k).1 : ℚ) / (scaled m 1 k).2 = s * 2 ^ e :=
        hsize.trans (size_finite other s e)
      exact ofRatio_exact hf hx (scaled_pos (n := m) Nat.one_pos k).ne' hratio
    | nan | infinite => cases hother
  | nan | infinite => cases hfinite

theorem convert_self (hf : f.Proper) (hx : x.InFormat f) : x.convert f = x := by
  cases x with
  | finite => exact convert_exact hf hx rfl rfl rfl rfl
  | nan | infinite => rfl

theorem inFormat_double (hs : 0 < s) (hfits : s < 2 ^ 53) (hlow : -1022 ≤ e) (hhigh : e ≤ 971) :
    (finite negative (s * 2 ^ (52 - s.log2)) (e - (52 - s.log2 : Nat))).InFormat .double := by
  have hlog : s.log2 < 53 := (Nat.log2_lt hs.ne').mpr hfits
  have hlong : 2 ^ 52 ≤ s * 2 ^ (52 - s.log2) :=
    calc 2 ^ 52 = 2 ^ s.log2 * 2 ^ (52 - s.log2) := by rw [← Nat.pow_add]; congr 1; omega
      _ ≤ s * 2 ^ (52 - s.log2) := Nat.mul_le_mul_right _ (Nat.log2_self_le hs.ne')
  have hshort : s * 2 ^ (52 - s.log2) < 2 ^ 53 :=
    calc s * 2 ^ (52 - s.log2) < 2 ^ (s.log2 + 1) * 2 ^ (52 - s.log2) :=
          Nat.mul_lt_mul_of_pos_right Nat.lt_log2_self (Nat.two_pow_pos _)
      _ = 2 ^ 53 := by rw [← Nat.pow_add]; congr 1; omega
  refine .inr ⟨Nat.mul_pos hs (Nat.two_pow_pos _), hshort, ?_, .inr ⟨?_, hlong⟩⟩
  · show e - ((52 - s.log2 : Nat) : Int) ≤ 971
    omega
  · show (-1074 : Int) ≤ e - ((52 - s.log2 : Nat) : Int)
    omega

theorem size_double : (finite negative (s * 2 ^ (52 - s.log2)) (e - (52 - s.log2 : Nat))).size =
    s * 2 ^ e := by
  rw [size_finite, zpow_sub₀ two_ne_zero, zpow_natCast]
  push_cast
  field_simp

theorem exists_double (hx : (finite negative s e).InFormat .single) :
    ∃ m k, (finite negative m k).InFormat .double ∧
      (finite negative m k).size = (finite negative s e).size := by
  obtain ⟨rfl, rfl⟩ | ⟨hs, hshort, hgreatest, hleast⟩ := hx
  · exact ⟨0, 0, .inl ⟨rfl, rfl⟩, rfl⟩
  have hfits : s < 2 ^ 53 := hshort.trans (by decide)
  have hexponent : -1022 ≤ e ∧ e ≤ 971 := by
    have hmin : Format.single.minExponent = -149 := rfl
    have hmax : Format.single.maxExponent = 104 := rfl
    omega
  refine ⟨_, _, inFormat_double hs hfits hexponent.1 hexponent.2, ?_⟩
  rw [size_double, size_finite]

theorem single_double (hx : x.InFormat .single) : (x.convert .double).convert .single = x := by
  cases x with
  | finite negative s e =>
    obtain ⟨m, k, hdouble, hsize⟩ := exists_double hx
    have hwide : (finite negative s e).convert .double = .finite negative m k :=
      convert_exact Format.double_proper hdouble rfl rfl rfl hsize.symm
    rw [hwide]
    exact convert_exact Format.single_proper hx rfl rfl rfl hsize
  | nan | infinite => rfl

end

end SpokenCountdown.Binary
