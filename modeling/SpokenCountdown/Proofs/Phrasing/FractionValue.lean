import SpokenCountdown.Proofs.Expansion.Safety
import SpokenCountdown.Proofs.Phrasing.LowestTerms

/-!
# What is spoken of a fraction is its value

However a fraction is written, its message is that of its value. The other way round, proper
fractions that sound alike are equal as long as they can be written with ten parts at most:
these have a name of their own, while all smaller ones are called parts, the eleventh like
the thirteenth. Euclid's algorithm ends on every pair of numbers and with a divisor that is
not zero. All of it is put together in `fractionMessage_value`.
-/

namespace SpokenCountdown.Phrasing

/-- A proper fraction that can be written with ten parts at most. -/
structure Nameable (n d : Nat) : Prop where
  positive : 0 < n
  proper : n < d
  named : ∃ k parts, 0 < parts ∧ parts ≤ 10 ∧ k * d = n * parts

section
variable {c n d m e k : Nat} {noun other : String}

-- ---------------------------------------------------------------------------
-- One message for each value
-- ---------------------------------------------------------------------------

theorem fractionMessage_scaled (positive : 0 < c) (n d : Nat) :
    fractionMessage (c * n) (c * d) = fractionMessage n d := by
  unfold fractionMessage
  rw [Nat.gcd_mul_left]
  rcases Nat.eq_zero_or_pos (n.gcd d) with hzero | hdivisor
  · obtain ⟨rfl, rfl⟩ := Nat.gcd_eq_zero_iff.mp hzero
    rfl
  · have hscaled : 0 < c * n.gcd d := Nat.mul_pos positive hdivisor
    rw [Nat.max_eq_left hscaled, Nat.max_eq_left hdivisor]
    dsimp only
    rw [Nat.mul_div_mul_left n _ positive, Nat.mul_div_mul_left d _ positive]

theorem fractionMessage_congr (hd : 0 < d) (he : 0 < e) (h : n * e = m * d) :
    fractionMessage n d = fractionMessage m e :=
  calc fractionMessage n d
      = fractionMessage (e * n) (e * d) := (fractionMessage_scaled he n d).symm
    _ = fractionMessage (d * m) (d * e) := by
      rw [Nat.mul_comm e n, h, Nat.mul_comm m d, Nat.mul_comm e d]
    _ = fractionMessage m e := fractionMessage_scaled hd m e

-- ---------------------------------------------------------------------------
-- One value for each message
-- ---------------------------------------------------------------------------

theorem quantity_inj (h : quantity n noun = quantity k other) : n = k ∧ noun = other := by
  have hrun (n : Nat) (noun : String) : Text.digitRun (quantity n noun).toList =
      (Text.numeral n, ' ' :: (noun.toList ++ (plural n).toList)) := by
    rw [toList_quantity]
    exact Text.digitRun_of_digits (fun _ => Text.isDigit_of_mem_numeral) (by rintro c ⟨⟩; rfl)
  have hparts := hrun n noun
  rw [h, hrun k other, Prod.mk.injEq] at hparts
  obtain ⟨hnumeral, hrest⟩ := hparts
  have hn : Text.IsNumeral n (Text.numeral k) := hnumeral ▸ Text.isNumeral_numeral
  obtain rfl := hn.unique Text.isNumeral_numeral
  have hnoun := List.append_cancel_right (List.cons.inj hrest).2
  exact ⟨rfl, String.toList_inj.mp hnoun.symm⟩

theorem fractionNoun_inj (low : 3 ≤ d) (high : d ≤ 10) (elow : 3 ≤ e) (ehigh : e ≤ 10)
    (h : fractionNoun d = fractionNoun e) : d = e := by
  have hnames : ∀ d < 11, ∀ e < 11, 3 ≤ d → 3 ≤ e → fractionNoun d = fractionNoun e → d = e := by
    decide
  exact hnames d (by omega) e (by omega) low elow h

theorem fractionNoun_of_lt (h : 10 < d) : fractionNoun d = "part" := by
  obtain ⟨k, rfl⟩ : ∃ k, d = k + 11 := ⟨d - 11, by omega⟩
  rfl

theorem Nameable.reduced (h : Nameable n d) : ∃ k parts divisor, 0 < k ∧ k < parts ∧ parts ≤ 10 ∧
    n = k * divisor ∧ d = parts * divisor ∧
      fractionMessage n d = if parts = 2 then none else some (quantity k (fractionNoun parts)) := by
  obtain ⟨positive, proper, j, written, hpositive, hten, hequal⟩ := h
  obtain ⟨k, parts, divisor, hdivisor, lowest, rfl, rfl, hmessage⟩ :=
    fractionMessage_reduced positive d
  have hdvd : parts ∣ written := by
    refine lowest.symm.dvd_of_dvd_mul_left ⟨j, Nat.eq_of_mul_eq_mul_right hdivisor ?_⟩
    calc k * written * divisor = k * divisor * written := by ac_rfl
      _ = j * (parts * divisor) := hequal.symm
      _ = parts * j * divisor := by ac_rfl
  exact ⟨k, parts, divisor, Nat.pos_of_mul_pos_right positive, Nat.lt_of_mul_lt_mul_right proper,
    Nat.le_trans (Nat.le_of_dvd hpositive hdvd) hten, rfl, rfl, hmessage⟩

theorem fractionMessage_inj (h : Nameable n d) (hother : Nameable m e) :
    fractionMessage n d = fractionMessage m e ↔ n * e = m * d := by
  refine ⟨fun hmessages => ?_, fractionMessage_congr (Nat.zero_lt_of_lt h.proper)
    (Nat.zero_lt_of_lt hother.proper)⟩
  obtain ⟨k, parts, divisor, low, proper, high, rfl, rfl, hmessage⟩ := h.reduced
  obtain ⟨j, shares, factor, jlow, jproper, jhigh, rfl, rfl, hmessage'⟩ := hother.reduced
  rw [hmessage, hmessage'] at hmessages
  have hterms : k = j ∧ parts = shares := by
    split at hmessages <;> split at hmessages
    · omega
    · cases hmessages
    · cases hmessages
    · obtain ⟨rfl, hnoun⟩ := quantity_inj (Option.some.inj hmessages)
      exact ⟨rfl, fractionNoun_inj (by omega) high (by omega) jhigh hnoun⟩
  obtain ⟨rfl, rfl⟩ := hterms
  ac_rfl

-- ---------------------------------------------------------------------------
-- Messages
-- ---------------------------------------------------------------------------

theorem exists_lowestTerms (positive : 0 < n) (proper : n < d) (uneven : 2 * n ≠ d) :
    ∃ k parts, k.Coprime parts ∧ k * d = n * parts ∧ 3 ≤ parts ∧
      fractionMessage n d = some (quantity k (fractionNoun parts)) := by
  obtain ⟨k, parts, divisor, hdivisor, lowest, rfl, rfl, hmessage⟩ :=
    fractionMessage_reduced positive d
  have hproper : k < parts := Nat.lt_of_mul_lt_mul_right proper
  have hk : 0 < k := Nat.pos_of_mul_pos_right positive
  have hparts : parts ≠ 2 := by
    rw [Ne, denominator_eq_two_iff lowest hproper]
    rintro rfl
    exact uneven (Nat.mul_assoc ..).symm
  rw [if_neg hparts] at hmessage
  exact ⟨k, parts, lowest, by ac_rfl, by omega, hmessage⟩

/-- The message of a fraction depends on its value alone. Of a proper fraction it is none
exactly for the half, and otherwise the numerator and the noun of the denominator in lowest
terms. Fractions of ten parts at most have one message only if they are equal; smaller parts
have no name of their own. On words the divisor is found within as many rounds as the
denominator and one more, and it is not zero. -/
theorem fractionMessage_value (n d : Nat) :
    (∀ c, 0 < c → fractionMessage (c * n) (c * d) = fractionMessage n d) ∧
      (0 < n → n < d →
        (fractionMessage n d = none ↔ 2 * n = d) ∧
          (2 * n ≠ d → ∃ k parts, k.Coprime parts ∧ k * d = n * parts ∧ 3 ≤ parts ∧
            fractionMessage n d = some (quantity k (fractionNoun parts)) ∧
            (10 < parts → fractionNoun parts = "part"))) ∧
      (∀ m e, Nameable n d → Nameable m e →
        (fractionMessage n d = fractionMessage m e ↔ n * e = m * d)) ∧
      (∃ divisor, 0 < divisor ∧ (0 < n.gcd d → divisor = n.gcd d) ∧
        ∀ rounds, d < rounds → Words.divisor rounds n d = .ok divisor) ∧
      Words.fractionMessage n d = .ok (fractionMessage n d) := by
  refine ⟨fun c hc => fractionMessage_scaled hc n d, fun positive proper => ⟨?_, fun uneven => ?_⟩,
    fun m e h hother => fractionMessage_inj h hother, ?_, ?_⟩
  · exact fractionMessage_eq_none_iff positive proper
  · obtain ⟨k, parts, lowest, hequal, low, hmessage⟩ := exists_lowestTerms positive proper uneven
    exact ⟨k, parts, lowest, hequal, low, hmessage, fractionNoun_of_lt⟩
  · exact ⟨max (n.gcd d) 1, by omega, fun h => Nat.max_eq_left h, fun _ => Words.divisor_eq⟩
  · exact Words.fractionMessage_eq n d

/-- Four sixths and two thirds sound alike, since they are equal. -/
theorem fractionMessage_value_sixths :
    Nameable 4 6 ∧ Nameable 2 3 ∧ (fractionMessage 4 6 = fractionMessage 2 3 ↔ 4 * 3 = 2 * 6) ∧
      0 < 4 ∧ 4 < 6 ∧ 2 * 4 ≠ 6 ∧ ∃ k parts, k.Coprime parts ∧ k * 6 = 4 * parts ∧ 3 ≤ parts ∧
        fractionMessage 4 6 = some (quantity k (fractionNoun parts)) ∧
        (10 < parts → fractionNoun parts = "part") := by
  have hsixths : Nameable 4 6 := ⟨by decide, by decide, 4, 6, by decide, by decide, rfl⟩
  have hthirds : Nameable 2 3 := ⟨by decide, by decide, 2, 3, by decide, by decide, rfl⟩
  obtain ⟨-, hproper, halike, -⟩ := fractionMessage_value 4 6
  exact ⟨hsixths, hthirds, halike 2 3 hsixths hthirds, by decide, by decide, by decide,
    (hproper (by decide) (by decide)).2 (by decide)⟩

/-- Whoever hears of one part cannot tell the eleventh from the thirteenth. -/
theorem eleventh_unnamed :
    (fractionMessage 1 11 = some "1 part" ∧ fractionMessage 1 13 = some "1 part") ∧
      ¬ ∃ read : String → Nat × Nat, ∀ n d, 0 < n → n < d → 2 * n ≠ d →
        ∀ text ∈ fractionMessage n d,
          (read text).1.Coprime (read text).2 ∧ (read text).1 * d = n * (read text).2 := by
  have heleventh : fractionMessage 1 11 = some "1 part" := by decide
  have hthirteenth : fractionMessage 1 13 = some "1 part" := by decide
  refine ⟨⟨heleventh, hthirteenth⟩, ?_⟩
  rintro ⟨read, hread⟩
  obtain ⟨lowest, h⟩ := hread 1 11 (by decide) (by decide) (by decide) _ heleventh
  obtain ⟨-, h'⟩ := hread 1 13 (by decide) (by decide) (by decide) _ hthirteenth
  have hnone : (read "1 part").1 = 0 ∧ (read "1 part").2 = 0 := by omega
  rw [hnone.1, hnone.2] at lowest
  exact absurd lowest (by decide)

end

end SpokenCountdown.Phrasing
