import SpokenCountdown.Phrasing

/-!
# Fractions in lowest terms

What is said of a fraction is its numerator and its denominator in lowest terms.
The half alone has no such text: `fractionMessage_eq_none_iff`.
-/

namespace SpokenCountdown.Phrasing

/-- The text says what share `k` out of `parts` is, in lowest terms and by parts that have
a name of their own. -/
inductive NamesShare (k parts : Nat) : String → Prop where
  | inLowestTerms {n d : Nat} (lowest : n.Coprime d) (equal : n * parts = k * d) (low : 3 ≤ d)
      (high : d ≤ 10) : NamesShare k parts (quantity n (fractionNoun d))

section
variable {n d k parts : Nat} {text : String}

theorem denominator_eq_two_iff (lowest : n.Coprime d) (proper : n < d) : d = 2 ↔ 2 * n = d := by
  constructor
  · rintro rfl
    obtain rfl | rfl : n = 0 ∨ n = 1 := by omega
    · exact absurd lowest (by decide)
    · rfl
  · rintro rfl
    rw [lowest.eq_one_of_dvd (Nat.dvd_mul_left n 2)]

theorem fractionMessage_reduced (positive : 0 < k) (parts : Nat) : ∃ n d divisor,
    0 < divisor ∧ n.Coprime d ∧ k = n * divisor ∧ parts = d * divisor ∧
      fractionMessage k parts = if d = 2 then none else some (quantity n (fractionNoun d)) := by
  have hdivisor : 0 < k.gcd parts := Nat.gcd_pos_of_pos_left parts positive
  obtain ⟨n, d, lowest, hk, hparts⟩ := Nat.exists_coprime k parts
  have hn : k / k.gcd parts = n := Nat.div_eq_of_eq_mul_left hdivisor hk
  have hd : parts / k.gcd parts = d := Nat.div_eq_of_eq_mul_left hdivisor hparts
  refine ⟨n, d, k.gcd parts, hdivisor, lowest, hk, hparts, ?_⟩
  simp only [fractionMessage, Nat.max_eq_left hdivisor, hn, hd]

theorem fractionMessage_eq_none_iff (positive : 0 < k) (proper : k < parts) :
    fractionMessage k parts = none ↔ 2 * k = parts := by
  obtain ⟨n, d, divisor, hdivisor, lowest, rfl, rfl, hmessage⟩ :=
    fractionMessage_reduced positive parts
  have hproper : n < d := Nat.lt_of_mul_lt_mul_right proper
  calc fractionMessage (n * divisor) (d * divisor) = none
      ↔ d = 2 := by rw [hmessage]; simp
    _ ↔ 2 * n = d := denominator_eq_two_iff lowest hproper
    _ ↔ 2 * (n * divisor) = d * divisor := by
      rw [← Nat.mul_assoc, Nat.mul_left_inj (Nat.ne_of_gt hdivisor)]

theorem namesShare_of_fractionMessage (positive : 0 < k) (proper : k < parts)
    (bounded : parts ≤ 10) (h : fractionMessage k parts = some text) :
    NamesShare k parts text := by
  obtain ⟨n, d, divisor, hdivisor, lowest, rfl, rfl, hmessage⟩ :=
    fractionMessage_reduced positive parts
  have hproper : n < d := Nat.lt_of_mul_lt_mul_right proper
  have hn : 0 < n := Nat.pos_of_mul_pos_right positive
  rw [hmessage] at h
  split at h
  · cases h
  · obtain rfl := Option.some.inj h
    have hle : d ≤ d * divisor := Nat.le_mul_of_pos_right d hdivisor
    exact .inLowestTerms lowest (by ac_rfl) (by omega) (Nat.le_trans hle bounded)

end

end SpokenCountdown.Phrasing
