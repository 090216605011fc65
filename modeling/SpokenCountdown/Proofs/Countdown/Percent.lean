import SpokenCountdown.Countdown.Percent
import SpokenCountdown.Proofs.Binary.Exact

/-!
# The percent of a full countdown

Whole numbers that the significand can hold are exact, and a number divided by
itself is one: a full countdown has exactly one hundred percent left.
-/

namespace SpokenCountdown

namespace Binary

theorem ofNat_double (hpos : n ≠ 0) (hlt : n < 2 ^ 53) :
    ofNat .double n = .finite false (n * 2 ^ (52 - n.log2)) (0 - (52 - n.log2 : Nat)) := by
  have hformat : (finite false _ (0 - (52 - n.log2 : Nat))).InFormat .double :=
    inFormat_double (Nat.pos_of_ne_zero hpos) hlt (by decide) (by decide)
  refine ofRatio_exact Format.double_proper hformat Nat.one_ne_zero ?_
  rw [← size_finite false, size_double]
  simp

theorem magnitude_ofNat_double (hpos : n ≠ 0) (hlt : n < 2 ^ 53) :
    (ofNat .double n).magnitude = (n * 2 ^ (52 - n.log2), 2 ^ (52 - n.log2)) := by
  have hpow : (-((0 : Int) - (52 - n.log2 : Nat))).toNat = 52 - n.log2 := by omega
  have hneg : ((0 : Int) - (52 - n.log2 : Nat)).toNat = 0 := by omega
  rw [ofNat_double hpos hlt]
  simp only [magnitude, scaled, hneg, Nat.pow_eq, Nat.pow_zero, Nat.mul_one, hpow, Nat.one_mul]

theorem ofRatio_self (h : n ≠ 0) : ofRatio .double false n n = .finite false (2 ^ 52) (-52) := by
  refine ofRatio_exact Format.double_proper (by decide) h ?_
  rw [div_self (by exact_mod_cast h)]
  norm_num

theorem div_self_double (hpos : n ≠ 0) (hlt : n < 2 ^ 53) :
    div .double (ofNat .double n) (ofNat .double n) = .finite false (2 ^ 52) (-52) := by
  have hpow : 2 ^ (52 - n.log2) ≠ 0 := (Nat.two_pow_pos _).ne'
  have hmul : n * 2 ^ (52 - n.log2) * 2 ^ (52 - n.log2) ≠ 0 :=
    mul_ne_zero (mul_ne_zero hpos hpow) hpow
  simp only [div, magnitude_ofNat_double hpos hlt, bne_self_eq_false]
  rw [Nat.mul_comm (2 ^ _) (n * _)]
  exact ofRatio_self hmul

end Binary

namespace Countdown

theorem percent_self {total : Nat} (hpos : total ≠ 0) (hlt : total < 2 ^ 53) :
    percent total total = Binary.ofNat .double 100 := by
  have hthousandths : percentThousandths total total = 100000 := by
    simp only [percentThousandths, Binary.div_self_double hpos hlt]
    decide
  simp only [percent, hpos, hthousandths, ↓reduceIte]
  decide

end Countdown

end SpokenCountdown
