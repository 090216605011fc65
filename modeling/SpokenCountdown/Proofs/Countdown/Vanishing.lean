import SpokenCountdown.Proofs.Binary.Order
import SpokenCountdown.Proofs.Countdown.Coherence
import SpokenCountdown.Proofs.Countdown.Pacing

/-!
# When no percent is left

The percent of the remaining time grows with its share of the total, although
every operation on the way is rounded (`percentThousandths_mono`). So it is zero
exactly as long as the share is below half a thousandth of a percent
(`percent_vanishes_iff`): for every countdown of more than 200 seconds that is so
while some milliseconds still remain (`percent_vanishes_early`).
-/

namespace SpokenCountdown

namespace Binary

section
variable {m n : Nat}

theorem exists_magnitude_ofNat (hlt : n < 2 ^ 53) :
    ∃ k, 0 < k ∧ (ofNat .double n).magnitude = (n * k, k) := by
  by_cases hn : n = 0
  · subst hn
    exact ⟨1, Nat.one_pos, rfl⟩
  · exact ⟨_, Nat.two_pow_pos _, magnitude_ofNat_double hn hlt⟩

theorem size_ofNat (hlt : n < 2 ^ 53) : (ofNat .double n).size = n := by
  obtain ⟨k, hk, hmagnitude⟩ := exists_magnitude_ofNat hlt
  have hk0 : (k : ℚ) ≠ 0 := by exact_mod_cast hk.ne'
  rw [size, hmagnitude]
  push_cast
  field_simp

theorem div_eq_ofRatio (hm : m < 2 ^ 53) (hn : n < 2 ^ 53) (hpos : n ≠ 0) :
    ∃ a b : Nat, b ≠ 0 ∧ (a : ℚ) / b = m / n ∧
      div .double (ofNat .double m) (ofNat .double n) = ofRatio .double false a b := by
  obtain ⟨j, hj, hmj⟩ := exists_magnitude_ofNat hm
  obtain ⟨k, hk, hnk⟩ := exists_magnitude_ofNat hn
  refine ⟨m * j * k, j * (n * k), ?_, ?_, ?_⟩
  · exact Nat.mul_ne_zero hj.ne' (Nat.mul_ne_zero hpos hk.ne')
  · have hj0 : (j : ℚ) ≠ 0 := by exact_mod_cast hj.ne'
    have hk0 : (k : ℚ) ≠ 0 := by exact_mod_cast hk.ne'
    push_cast
    field_simp
  · simp only [div, hmj, hnk]
    simp only [ofNat, isNegative_ofRatio, bne_self_eq_false]

end

end Binary

namespace Countdown

def quotient (remaining total : Nat) : Binary :=
  .div .double (.ofNat .double remaining) (.ofNat .double total)

section
variable {remaining total : Nat}

theorem quotient_mono (m n remaining total : Nat) (hn : n ≠ 0 ∧ n < 2 ^ 53)
    (ht : total ≠ 0 ∧ total < 2 ^ 53) (hm : m < 2 ^ 53) (hr : remaining ≤ total)
    (h : m * total ≤ remaining * n) :
    (quotient remaining total).isFinite = true ∧
      (quotient m n).size ≤ (quotient remaining total).size := by
  obtain ⟨a, b, hb, hab, hsmall⟩ := Binary.div_eq_ofRatio hm hn.2 hn.1
  obtain ⟨c, d, hd, hcd, hgreat⟩ := Binary.div_eq_ofRatio (Nat.lt_of_le_of_lt hr ht.2) ht.2 ht.1
  have hn0 : (0 : ℚ) < n := by exact_mod_cast Nat.pos_of_ne_zero hn.1
  have ht0 : (0 : ℚ) < total := by exact_mod_cast Nat.pos_of_ne_zero ht.1
  have hone : (c : ℚ) / d ≤ 1 := by
    rw [hcd, div_le_one ht0]
    exact_mod_cast hr
  have hfinite : (Binary.ofRatio .double false c d).isFinite = true :=
    Binary.isFinite_ofRatio false Binary.Format.double_proper hd
      (hone.trans (one_le_zpow₀ one_le_two (by decide)))
  rw [quotient, quotient, hsmall, hgreat]
  refine ⟨hfinite, Binary.size_ofRatio_mono Binary.Format.double_proper hb hd ?_ hfinite⟩
  rw [hab, hcd, div_le_div_iff₀ hn0 ht0]
  exact_mod_cast h

theorem quotient_le_one (ht : total ≠ 0 ∧ total < 2 ^ 53) (hr : remaining ≤ total) :
    (quotient remaining total).isFinite = true ∧ (quotient remaining total).size ≤ 1 := by
  have hself : (quotient 1 1).size = 1 := by
    rw [quotient, Binary.div_self_double one_ne_zero (by decide), Binary.size_finite]
    norm_num
  have hfinite := (quotient_mono 0 1 remaining total (by decide) ht (by decide) hr (by omega)).1
  have hle := (quotient_mono remaining total 1 1 ht (by decide) (by omega) (by decide) (by omega)).2
  exact ⟨hfinite, hself ▸ hle⟩

/-- The thousandths before they are made whole: the quotient, a hundred thousand
times, rounded once more. -/
theorem product_eq_ofRatio (hr : remaining ≤ total) (ht : total ≠ 0 ∧ total < 2 ^ 53) :
    ∃ (negative : Bool) (a b : Nat), b ≠ 0 ∧
      (a : ℚ) / b = (quotient remaining total).size * 100000 ∧ (a : ℚ) / b ≤ 100000 ∧
        Binary.mul .double (quotient remaining total) (.ofNat .double 100000) =
          .ofRatio .double negative a b := by
  have hfactor : (Binary.ofNat .double 100000).isFinite = true := by decide
  have hsize : (Binary.ofNat .double 100000).size = 100000 := by
    exact_mod_cast Binary.size_ofNat (n := 100000) (by decide)
  obtain ⟨hfinite, hone⟩ := quotient_le_one ht hr
  obtain ⟨negative, a, b, hb, hab, hp⟩ := Binary.mul_eq_ofRatio .double hfinite hfactor
  rw [hsize] at hab
  refine ⟨negative, a, b, hb, hab, ?_, hp⟩
  rw [hab]
  linarith

theorem percentThousandths_mono (m n remaining total : Nat) (hn : n ≠ 0 ∧ n < 2 ^ 53)
    (ht : total ≠ 0 ∧ total < 2 ^ 53) (hm : m ≤ n) (hr : remaining ≤ total)
    (h : m * total ≤ remaining * n) :
    percentThousandths m n ≤ percentThousandths remaining total := by
  have hle := (quotient_mono m n remaining total hn ht (by omega) hr h).2
  obtain ⟨negative, a, b, hb, hab, -, hp⟩ := product_eq_ofRatio hm hn
  obtain ⟨negative', c, d, hd, hcd, hmax, hq⟩ := product_eq_ofRatio hr ht
  apply Binary.roundedMagnitude_mono
  show (Binary.mul .double (quotient m n) _).size ≤
    (Binary.mul .double (quotient remaining total) _).size
  rw [hp, hq]
  refine Binary.size_ofRatio_mono Binary.Format.double_proper hb hd ?_
    (Binary.isFinite_ofRatio negative' Binary.Format.double_proper hd ?_)
  · rw [hab, hcd]
    gcongr
  · calc (c : ℚ) / d ≤ 2 ^ (17 : Int) := hmax.trans (by norm_num)
      _ ≤ 2 ^ (971 : Int) := zpow_le_zpow_right₀ one_le_two (by decide)

/-- The least share that does not vanish is half a thousandth of a percent. -/
theorem percentThousandths_eq_zero_iff (hr : remaining ≤ total) (hpos : total ≠ 0)
    (hmax : total ≤ 86400000) :
    percentThousandths remaining total = 0 ↔ 200000 * remaining < total := by
  have ht : total ≠ 0 ∧ total < 2 ^ 53 := ⟨hpos, by omega⟩
  have hleast : percentThousandths 1 200000 = 1 := by decide
  -- the greatest share below it for a total of at most a day
  have hgreatest : percentThousandths 431 86200001 = 0 := by decide
  constructor
  · intro hzero
    by_contra hnot
    have hmono := percentThousandths_mono 1 200000 remaining total (by decide) ht (by decide) hr
      (by omega)
    omega
  · intro hsmall
    have hmono := percentThousandths_mono remaining total 431 86200001 ht (by decide) hr
      (by decide) (by omega)
    omega

theorem percentThousandths_le (hr : remaining ≤ total) (ht : total ≠ 0 ∧ total < 2 ^ 53) :
    percentThousandths remaining total ≤ 100000 := by
  have hwhole : percentThousandths 1 1 = 100000 := by decide
  rw [← hwhole]
  exact percentThousandths_mono remaining total 1 1 ht (by decide) hr (by decide) (by omega)

theorem percent_eq_zero_iff (hr : remaining ≤ total) (hpos : total ≠ 0)
    (hmax : total ≤ 86400000) :
    percent remaining total = .ofNat .double 0 ↔ 200000 * remaining < total := by
  rw [← percentThousandths_eq_zero_iff hr hpos hmax, percent, if_neg hpos]
  have hle := percentThousandths_le hr ⟨hpos, by omega⟩
  generalize percentThousandths remaining total = k at *
  constructor
  · intro hzero
    by_contra hk
    -- a thousandth is not rounded to zero, so no more is what is greater
    have hleast : Binary.ofRatio .double false 1 1000 = .finite false 4611686018427388 (-62) := by
      decide
    have hfinite : (Binary.ofRatio .double false k 1000).isFinite = true := by rw [hzero]; rfl
    have hmono : (Binary.ofRatio .double false 1 1000).size ≤
        (Binary.ofRatio .double false k 1000).size := by
      refine Binary.size_ofRatio_mono Binary.Format.double_proper (by decide) (by decide) ?_ hfinite
      gcongr
      exact Nat.one_le_iff_ne_zero.mpr hk
    rw [hleast, hzero, Binary.size_finite, Binary.size_ofNat (by decide)] at hmono
    norm_num at hmono
  · rintro rfl
    rfl

end

/-- A day with the two announcements of its last seconds. -/
def day : Settings :=
  { tenSeconds with duration := .number 86400000 }

def daySession : Session :=
  { tenSecondsSession with total := 86400000 }

set_option maxRecDepth 10000 in
theorem day_session : day.session = .ok daySession := by
  have h : day.session = .ok _ := rfl
  rw [h, Reconciliation.reconcile_of_descending (by decide +kernel)]
  decide +kernel

/-- The percent is zero exactly where less than half a thousandth of a percent
remains, in every countdown of at most a day. -/
theorem percent_vanishes_iff (remaining total : Nat) (hpos : 1 ≤ total) (hmax : total ≤ 86400000)
    (hle : remaining ≤ total) (history : List Operation) :
    (percent remaining total = .ofNat .double 0 ↔ 200000 * remaining < total) ∧
      let c := Countdown.unset.after history
      c.session?.isSome → (c.percentLeft = .ofNat .double 0 ↔ 200000 * c.remaining < c.total) := by
  constructor
  · exact percent_eq_zero_iff hle (by omega) hmax
  · intro c hloaded
    have hsound : c.Sound := unset_sound.after history
    have hle := remaining_le_total hsound
    clear_value c
    cases c with
    | unset => cases hloaded
    | loaded session run =>
      exact percent_eq_zero_iff hle (Nat.ne_of_gt hsound.1.positive) hsound.1.bounded

/-- Of a day 431 milliseconds are no percent, one more is a thousandth; and its
last millisecond is none. -/
theorem percent_vanishes_iff_day :
    percent 431 86400000 = .ofNat .double 0 ∧ percent 432 86400000 ≠ .ofNat .double 0 ∧
      let c := Countdown.unset.after ([.configure day, .start 0] ++ [.tick 86399999000])
      c.session?.isSome ∧ c.remaining = 1 ∧ c.percentLeft = .ofNat .double 0 := by
  let history : List Operation := [.configure day, .start 0] ++ [.tick 86399999000]
  have hless := percent_vanishes_iff 431 86400000 (by decide) (by decide) (by decide) history
  have hmore := percent_vanishes_iff 432 86400000 (by decide) (by decide) (by decide) history
  have hstate : (Countdown.unset.after history).session?.isSome ∧
      (Countdown.unset.after history).remaining = 1 ∧
        (Countdown.unset.after history).total = 86400000 := by
    rw [after_append, entered_of_session day_session rfl 0]
    decide +kernel
  obtain ⟨hloaded, hone, htotal⟩ := hstate
  refine ⟨hless.1.mpr (by decide), fun h => absurd (hmore.1.mp h) (by decide), hloaded, hone, ?_⟩
  exact (hless.2 hloaded).mpr (by rw [hone, htotal]; decide)

/-- So zero is not kept for the end: in a day's last millisecond, while the
countdown still runs, no percent is left. -/
theorem percent_vanishes_early :
    (¬ ∀ remaining total, 1 ≤ total → total ≤ 86400000 → remaining ≤ total →
      (percent remaining total = .ofNat .double 0 ↔ remaining = 0)) ∧
    ∃ history, let c := Countdown.unset.after history
      c.session?.isSome ∧ c.state = .running ∧ c.remaining = 1 ∧
        c.percentLeft = .ofNat .double 0 := by
  have hzero : percent 1 86400000 = .ofNat .double 0 := by decide +kernel
  constructor
  · intro h
    exact absurd ((h 1 86400000 (by decide) (by decide) (by decide)).mp hzero) (by decide)
  · refine ⟨[.configure day, .start 0] ++ [.tick 86399999000], ?_⟩
    rw [after_append, entered_of_session day_session rfl 0]
    decide +kernel

end Countdown

end SpokenCountdown
