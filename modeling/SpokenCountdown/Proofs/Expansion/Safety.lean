import SpokenCountdown.Proofs.Expansion.Truthful
import SpokenCountdown.Proofs.Expansion.Words

/-!
# Expansion on words is safe

A directive that was read from a token is expanded without a fault, however large
the numbers in it are: a count is capped by the total before anything is multiplied
by it, and no amount is zero. The result is that of the expansion without words,
and its length is bounded by the total alone: `expand_safe`.
-/

namespace SpokenCountdown

namespace Expansion

-- ---------------------------------------------------------------------------
-- How much there is to say
-- ---------------------------------------------------------------------------

section
variable {span cadence count total amount denominator : Nat} {anchor : Anchor} {phrases : Phrases}
  {d : Directive} {unit : TimeUnit} {numerator : Option Nat}

theorem length_multiples (span count : Nat) (anchor : Anchor) (total : Nat) (phrases : Phrases) :
    (multiples span count anchor total phrases).length ≤ count := by
  have hfound := List.length_filterMap_le
    (fun k => anchored ((k + 1) * span) anchor total phrases) (List.range count)
  rwa [List.length_range] at hfound

theorem length_symmetric (cadence total : Nat) (phrases : Phrases) :
    (symmetric cadence total phrases).length = total / 2 / cadence * 2 := by
  simp only [symmetric, List.length_flatMap, List.length_cons, List.length_nil, List.map_const',
    List.sum_replicate_nat, List.length_range]

theorem length_times (h : d.WellFormed) (hform : d.form = .time amount unit) :
    (times d amount unit total phrases).length ≤ total / 1000 + 1 := by
  have hfit {span : Nat} (hspan : 1000 ≤ span) : total / span ≤ total / 1000 :=
    Nat.div_le_div_left hspan (by decide)
  by_cases hpairs : d.quantifier ≠ .single ∧ d.anchor = .both
  · obtain ⟨repeated, unanchored⟩ := hpairs
    have hcadence : 1000 ≤ d.cadence amount unit :=
      Nat.le_of_dvd (cadence_positive h hform) (whole_cadence d amount unit)
    have hhalved : total / 2 / d.cadence amount unit * 2 ≤ total / d.cadence amount unit := by
      rw [Nat.div_right_comm]
      exact Nat.div_mul_le_self _ 2
    rw [times_eq_symmetric repeated unanchored, length_symmetric]
    exact Nat.le_succ_of_le (Nat.le_trans hhalved (hfit hcadence))
  · have hwell := h.1
    rw [hform] at hwell
    have hunit := unit.milliseconds_bounds.1
    obtain ⟨span, count, hspan, hcount, hperm⟩ :=
      times_perm_multiples hpairs amount unit total phrases
    have hlow : 1000 ≤ span := by
      rcases hspan with rfl | rfl
      · exact Nat.le_trans hunit (Nat.le_mul_of_pos_left _ hwell.1)
      · exact hunit
    rw [hperm.length_eq]
    exact Nat.le_trans (length_multiples ..) (Nat.le_trans hcount (Nat.succ_le_succ (hfit hlow)))

theorem length_fractions (hdenominator : denominator ≤ 10) :
    (fractions d numerator denominator total phrases).length ≤ 10 := by
  unfold fractions
  split
  · exact (by decide : 1 ≤ 10)
  · dsimp only
    generalize (d.multiplier <|> numerator.filter (1 < ·)) = wanted
    have hcount := wanted_le wanted (denominator - 1)
    rw [List.length_map]
    split
    · have hmost : (min ((wanted.map (min · (denominator - 1))).getD (denominator - 1))
          (denominator / 2)) ≤ denominator / 2 := Nat.min_le_right _ _
      simp only [List.length_flatMap, List.length_cons, List.length_nil, List.map_const',
        List.sum_replicate_nat, List.length_map, List.length_range]
      omega
    · simp only [List.length_map, List.length_range]
      omega
    · simp only [List.length_map, List.length_range]
      omega

end

end Expansion

open Expansion (wanted_le)

namespace Words

-- ---------------------------------------------------------------------------
-- Phrasing
-- ---------------------------------------------------------------------------

section
variable {ms unit n d : Nat}

theorem roundSeconds_eq (h : ms + 500 < Text.word64) :
    roundSeconds ms = .ok (Phrasing.roundSeconds ms) := by
  rw [roundSeconds, add_eq h, ok_bind, div_eq (by decide)]
  rfl

theorem takeUnits_eq (h : ms < Text.word64) (positive : 0 < unit) :
    takeUnits ms unit = .ok (ms / unit, ms % unit) := by
  have hle : ms / unit * unit ≤ ms := Nat.div_mul_le_self ms unit
  have hrest : ms - ms / unit * unit = ms % unit := by
    rw [Nat.mul_comm]
    exact (Nat.mod_eq_sub ms unit).symm
  rw [takeUnits, div_eq positive, ok_bind]
  split
  · rw [mul_eq (Nat.lt_of_le_of_lt hle h), ok_bind, sub_eq hle, ok_bind, hrest]
    rfl
  · rename_i hzero
    have hnone : ms / unit = 0 := Nat.eq_zero_of_not_pos hzero
    rw [hnone, Nat.zero_mul, Nat.sub_zero] at hrest
    rw [← hrest]
    rfl

theorem timeMessage_eq (h : ms < Text.word64) (suffix : String) (forceUnit : Bool) :
    timeMessage ms suffix forceUnit = .ok (Phrasing.timeMessage ms suffix forceUnit) := by
  unfold timeMessage Phrasing.timeMessage
  split
  · rename_i hshort
    have hsum : ms + 500 < Text.word64 := Nat.lt_trans (Nat.add_lt_add_right hshort 500) (by decide)
    rw [roundSeconds_eq hsum, ok_bind]
    rfl
  · have hminutes : ms % 3600000 % 60000 = ms % 60000 := Nat.mod_mod_of_dvd ms (by decide)
    have hrest : ms % 3600000 < Text.word64 := Nat.lt_of_le_of_lt (Nat.mod_le _ _) h
    have hsum : ms % 60000 + 500 < Text.word64 :=
      Nat.lt_trans (Nat.add_lt_add_right (Nat.mod_lt ms (by decide)) 500) (by decide)
    rw [takeUnits_eq h (by decide), ok_bind]
    dsimp only
    rw [takeUnits_eq hrest (by decide), ok_bind]
    dsimp only
    rw [hminutes, roundSeconds_eq hsum, ok_bind]
    rfl

-- the second number gets smaller in every round
theorem divisor_eq {rounds a b : Nat} (h : b < rounds) :
    divisor rounds a b = .ok (max (Nat.gcd a b) 1) := by
  induction rounds generalizing a b with
  | zero => omega
  | succ rounds ih =>
    rw [divisor]
    split
    · rename_i hzero
      rw [hzero, Nat.gcd_zero_right]
      rfl
    · have positive : 0 < b := by omega
      have hrest : a % b < b := Nat.mod_lt a positive
      rw [mod_eq positive, ok_bind, ih (by omega), Nat.gcd_comm, ← Nat.gcd_rec, Nat.gcd_comm]

theorem fractionMessage_eq (n d : Nat) :
    fractionMessage n d = .ok (Phrasing.fractionMessage n d) := by
  have positive : 0 < max (Nat.gcd n d) 1 := Nat.lt_of_lt_of_le Nat.one_pos (Nat.le_max_right _ _)
  unfold fractionMessage
  rw [divisor_eq (Nat.lt_succ_self d), ok_bind, div_eq positive, ok_bind, div_eq positive, ok_bind]
  rfl

end

-- ---------------------------------------------------------------------------
-- Times
-- ---------------------------------------------------------------------------

section
variable {span cadence count total amount rounds : Nat} {anchor : Anchor} {phrases : Phrases}
  {d : Directive} {unit : TimeUnit}

theorem anchored_eq (h : span < Text.word64) :
    anchored span anchor total phrases = .ok (Expansion.anchored span anchor total phrases) := by
  cases anchor with
  | first =>
    unfold anchored Expansion.anchored
    dsimp only
    split
    · rename_i hle
      rw [sub_eq hle, ok_bind, timeMessage_eq h]
      rfl
    · rfl
  | last | both =>
    unfold anchored
    dsimp only
    rw [timeMessage_eq h]
    rfl

theorem multiples_eq (h : count * span < Text.word64) :
    multiples span count anchor total phrases =
      .ok (Expansion.multiples span count anchor total phrases) := by
  have each : ∀ k ∈ List.range count,
      (do
        let multiple ← mul (k + 1) span
        anchored multiple anchor total phrases : Checked (Option Announcement)) =
      .ok (Expansion.anchored ((k + 1) * span) anchor total phrases) := by
    intro k hk
    have hle : (k + 1) * span ≤ count * span := Nat.mul_le_mul_right span (List.mem_range.mp hk)
    rw [mul_eq (by omega), ok_bind, anchored_eq (by omega)]
  rw [multiples, mapM_eq each, ok_bind, List.filterMap_map]
  rfl

def pair (cadence total : Nat) (phrases : Phrases) (k : Nat) : List Announcement :=
  let span := (k + 1) * cadence
  [Phrasing.announcement span (Phrasing.timeMessage span phrases.toGo false),
    Expansion.mirrored span total phrases]

/-- From round `k` on. The span is never added to unless it lies before the midpoint. -/
theorem pairs_from (phrases : Phrases) {k : Nat} (positive : 0 < cadence) (htotal : total ≤ 2 ^ 60)
    (hk : k ≤ total / 2 / cadence) (hrounds : total / 2 / cadence < k + rounds) :
    pairs cadence total phrases rounds ((k + 1) * cadence) =
      .ok ((List.range' k (total / 2 / cadence - k)).flatMap (pair cadence total phrases)) := by
  induction rounds generalizing k with
  | zero => omega
  | succ rounds ih =>
    have hmidpoint : k < total / 2 / cadence ↔ (k + 1) * cadence ≤ total / 2 := by
      rw [← Nat.le_div_iff_mul_le positive, Nat.succ_le_iff]
    rw [pairs]
    split
    · rename_i hspan
      have hround := hmidpoint.mpr hspan
      have hcadence : cadence ≤ (k + 1) * cadence := Nat.le_mul_of_pos_left _ k.succ_pos
      have hnext : (k + 1) * cadence + cadence = (k + 1 + 1) * cadence :=
        (Nat.succ_mul (k + 1) cadence).symm
      have hword : (k + 1) * cadence + cadence < Text.word64 := by
        simp only [Text.word64]
        omega
      have hrest : total / 2 / cadence - k = total / 2 / cadence - (k + 1) + 1 := by omega
      rw [timeMessage_eq (by omega), ok_bind, sub_eq (by omega), ok_bind,
        timeMessage_eq (by omega), ok_bind, add_eq (by omega), ok_bind, hnext,
        ih (by omega) (by omega), ok_bind, hrest, List.range'_succ, List.flatMap_cons]
      rfl
    · rename_i hspan
      have hlast : total / 2 / cadence - k = 0 := by
        rw [← hmidpoint] at hspan
        omega
      rw [hlast]
      rfl

theorem pairs_eq (positive : 0 < cadence) (htotal : total ≤ 2 ^ 60)
    (hrounds : total / 2 / cadence < rounds) :
    pairs cadence total phrases rounds cadence =
      .ok (Expansion.symmetric cadence total phrases) := by
  have hall := pairs_from phrases positive htotal (Nat.zero_le _) (by rwa [Nat.zero_add])
  rwa [Nat.zero_add, Nat.one_mul, Nat.sub_zero, ← List.range_eq_range'] at hall

/-- A cadence beyond the midpoint has no pairs, whether or not it is cut to a word. -/
theorem symmetric_saturating (htotal : total ≤ 2 ^ 60) (a b : Nat) :
    Expansion.symmetric (mulSaturating a b) total phrases =
      Expansion.symmetric (a * b) total phrases := by
  by_cases h : a * b < Text.word64
  · rw [mulSaturating_eq h]
  · have hsaturated : mulSaturating a b = Text.word64 - 1 := Nat.min_eq_right (by omega)
    have hnone (cadence : Nat) (hcadence : Text.word64 - 1 ≤ cadence) :
        Expansion.symmetric cadence total phrases = [] := by
      simp only [Text.word64] at hcadence
      rw [Expansion.symmetric, Nat.div_eq_of_lt (by omega)]
      rfl
    rw [hsaturated, hnone _ (Nat.le_refl _), hnone _ (by omega)]

theorem interval_bounds (hamount : 1 ≤ amount ∧ amount < Text.word32) (unit : TimeUnit) :
    1000 ≤ amount * unit.milliseconds ∧ amount * unit.milliseconds < 2 ^ 54 := by
  obtain ⟨hpositive, hword⟩ := hamount
  simp only [Text.word32] at hword
  cases unit <;> simp only [TimeUnit.milliseconds] <;> omega

theorem multiple_fits (htotal : total ≤ 2 ^ 60) (hspan : span < 2 ^ 54)
    (hcount : count ≤ total / span + 1) : count * span < Text.word64 := by
  have hroom : total / span * span ≤ total := Nat.div_mul_le_self total span
  have hcapped : count * span ≤ (total / span + 1) * span := Nat.mul_le_mul_right span hcount
  rw [Nat.succ_mul] at hcapped
  simp only [Text.word64]
  omega

theorem rounds_suffice (hcadence : 1000 ≤ cadence) (hrounds : total / 2000 < rounds) :
    total / 2 / cadence < rounds := by
  have hle : total / 2 / cadence ≤ total / 2 / 1000 := Nat.div_le_div_left hcadence (by decide)
  omega

theorem times_eq (hamount : 1 ≤ amount ∧ amount < Text.word32) (hcount : 1 ≤ d.count)
    (htotal : total ≤ 2 ^ 60) (hrounds : total / 2000 < rounds) :
    times rounds d amount unit total phrases =
      .ok (Expansion.times d amount unit total phrases) := by
  obtain ⟨hlow, hhigh⟩ := interval_bounds hamount unit
  obtain ⟨hunit, hsmall⟩ := unit.milliseconds_bounds
  have hword : amount * unit.milliseconds < Text.word64 := Nat.lt_trans hhigh (by decide)
  have positive : 0 < amount * unit.milliseconds := Nat.lt_of_lt_of_le (by decide) hlow
  obtain ⟨quantifier, anchor, multiplier, form, raw⟩ := d
  unfold times Expansion.times
  dsimp only
  rw [mulSaturating_eq hword]
  generalize amount * unit.milliseconds = interval at *
  cases quantifier with
  | single =>
    have hmost : total / interval + 1 < Text.word64 := by
      have hle : total / interval ≤ total := Nat.div_le_self total interval
      simp only [Text.word64]
      omega
    dsimp only
    rw [div_eq positive, ok_bind, add_eq hmost, ok_bind,
      multiples_eq (multiple_fits htotal hhigh (Nat.min_le_right _ _))]
  | all =>
    cases anchor with
    | both => exact pairs_eq positive htotal (rounds_suffice hlow hrounds)
    | first | last =>
      have hcapped : min amount (total / unit.milliseconds) ≤ total / unit.milliseconds + 1 :=
        Nat.le_succ_of_le (Nat.min_le_right _ _)
      dsimp only
      rw [div_eq (by omega), ok_bind, multiples_eq (multiple_fits htotal (by omega) hcapped)]
      rfl
  | every =>
    cases anchor with
    | both =>
      have hcadence (written : Nat) (hwritten : 1 ≤ written) :
          1000 ≤ mulSaturating interval written := by
        have hproduct : interval ≤ interval * written := Nat.le_mul_of_pos_right _ hwritten
        exact Nat.le_min.mpr ⟨Nat.le_trans hlow hproduct, by decide⟩
      have hlow := hcadence _ hcount
      dsimp only
      rw [pairs_eq (Nat.lt_of_lt_of_le (by decide) hlow) htotal (rounds_suffice hlow hrounds),
        symmetric_saturating htotal]
    | first | last =>
      have hcapped := Nat.le_succ_of_le (wanted_le multiplier (total / interval))
      dsimp only
      rw [div_eq positive, ok_bind, multiples_eq (multiple_fits htotal hhigh hcapped)]
      rfl

end

-- ---------------------------------------------------------------------------
-- Fractions
-- ---------------------------------------------------------------------------

section
variable {denominator total k : Nat} {numerator : Option Nat} {phrases : Phrases} {d : Directive}

def spoken (denominator : Nat) (phrases : Phrases) (k : Nat) (suffix : String) : String :=
  match Phrasing.fractionMessage k denominator with
  | some text => text ++ suffix
  | none => phrases.halfWay

def ends (denominator total : Nat) (phrases : Phrases) (k : Nat) : List Announcement :=
  let mark := total * k / denominator
  [Phrasing.announcement mark (spoken denominator phrases k phrases.toGo),
    Phrasing.announcement (total - mark) (spoken denominator phrases k phrases.gone)]

theorem mark_eq (htotal : total ≤ 2 ^ 60) (hk : k < denominator) (hdenominator : denominator ≤ 10) :
    mark denominator total k = .ok (total * k / denominator) := by
  have hproduct : total * k ≤ total * 9 := Nat.mul_le_mul_left total (by omega)
  rw [mark, mul_eq (by simp only [Text.word64]; omega), ok_bind, div_eq (by omega)]

theorem mark_le (hk : k < denominator) : total * k / denominator ≤ total := by
  refine Nat.div_le_of_le_mul ?_
  rw [Nat.mul_comm]
  exact Nat.mul_le_mul_right total (Nat.le_of_lt hk)

theorem message_eq (suffix : String) :
    message denominator phrases k suffix = .ok (spoken denominator phrases k suffix) := by
  rw [message, fractionMessage_eq, ok_bind]
  rfl

theorem toGo_eq (htotal : total ≤ 2 ^ 60) (hk : k < denominator) (hdenominator : denominator ≤ 10) :
    toGo denominator total phrases k =
      .ok (Phrasing.announcement (total * k / denominator)
        (spoken denominator phrases k phrases.toGo)) := by
  rw [toGo, mark_eq htotal hk hdenominator, ok_bind, message_eq]
  rfl

theorem gone_eq (htotal : total ≤ 2 ^ 60) (hk : k < denominator) (hdenominator : denominator ≤ 10) :
    gone denominator total phrases k =
      .ok (Phrasing.announcement (total - total * k / denominator)
        (spoken denominator phrases k phrases.gone)) := by
  rw [gone, mark_eq htotal hk hdenominator, ok_bind, sub_eq (mark_le hk), ok_bind, message_eq]
  rfl

theorem fractions_eq (htotal : total ≤ 2 ^ 60) (hlow : 2 ≤ denominator)
    (hdenominator : denominator ≤ 10) :
    fractions d numerator denominator total phrases =
      .ok (Expansion.fractions d numerator denominator total phrases) := by
  unfold fractions Expansion.fractions
  split
  · rfl
  · dsimp only
    rw [sub_eq (by omega), ok_bind]
    generalize (d.multiplier <|> numerator.filter (1 < ·)) = wanted
    have hcount := wanted_le wanted (denominator - 1)
    generalize (wanted.map (min · (denominator - 1))).getD (denominator - 1) = count at hcount
    have within {most k : Nat} (hmost : most ≤ count) (hk : k ∈ List.range most) :
        k + 1 < denominator := by
      have := List.mem_range.mp hk
      omega
    cases d.anchor with
    | both =>
      dsimp only
      have hboth : ∀ k ∈ List.range (min count (denominator / 2)), (do
          let left ← toGo denominator total phrases (k + 1)
          let passed ← gone denominator total phrases (k + 1)
          pure [left, passed] : Checked (List Announcement)) =
          .ok (ends denominator total phrases (k + 1)) := by
        intro k hk
        have hk := within (Nat.min_le_left _ _) hk
        rw [toGo_eq htotal hk hdenominator, ok_bind, gone_eq htotal hk hdenominator]
        rfl
      rw [div_eq (by decide), ok_bind, mapM_eq hboth, List.flatMap_map]
      rfl
    | last =>
      dsimp only
      rw [mapM_eq fun k hk => toGo_eq htotal (within (Nat.le_refl _) hk) hdenominator, ok_bind]
      simp only [List.map_map]
      rfl
    | first =>
      dsimp only
      rw [mapM_eq fun k hk => gone_eq htotal (within (Nat.le_refl _) hk) hdenominator, ok_bind]
      simp only [List.map_map]
      rfl

end

end Words

namespace Directive

variable {token : String} {d : Directive} {total rounds : Nat} {phrases : Phrases}

theorem WellFormed.expand_eq (h : d.WellFormed) (htotal : total ≤ 2 ^ 60)
    (hrounds : total / 2000 < rounds) :
    Words.expand rounds d total phrases = .ok (d.expand total phrases) := by
  have hform := h.1
  unfold Words.expand expand
  split
  · rfl
  · cases hd : d.form with
    | time amount unit =>
      rw [hd] at hform
      exact Words.times_eq hform h.count_pos htotal hrounds
    | fraction numerator denominator =>
      rw [hd] at hform
      exact Words.fractions_eq htotal hform.2.1 hform.2.2

theorem WellFormed.length_expand (h : d.WellFormed) :
    (d.expand total phrases).length ≤ max 10 (total / 1000 + 1) := by
  have hform := h.1
  unfold expand
  split
  · exact Nat.zero_le _
  · cases hd : d.form with
    | time amount unit => exact Nat.le_trans (Expansion.length_times h hd) (Nat.le_max_right _ _)
    | fraction numerator denominator =>
      rw [hd] at hform
      exact Nat.le_trans (Expansion.length_fractions hform.2.2) (Nat.le_max_left _ _)

/-- A directive that was read from a token is expanded without a fault, and its
announcements are ten at most or one more than the total has seconds. -/
theorem expand_safe (hparse : parse? token = some d) (htotal : total ≤ 2 ^ 60)
    (hrounds : total / 2000 < rounds) :
    Words.expand rounds d total phrases = .ok (d.expand total phrases) ∧
      (d.expand total phrases).length ≤ max 10 (total / 1000 + 1) := by
  have hwell : d.WellFormed := (parse?_eq_some_iff.mp hparse).2.wellFormed
  exact ⟨hwell.expand_eq htotal hrounds, hwell.length_expand⟩

/-- The last of its spans would be more milliseconds than a word holds. -/
def hugeLast : Directive :=
  ⟨.single, .last, some 4000000000, .time 4000000000 .hours, "4000000000last4000000000h"⟩

theorem expand_safe_huge :
    parse? "4000000000last4000000000h" = some hugeLast ∧ 2 ^ 60 ≤ 2 ^ 60 ∧
      2 ^ 60 / 2000 < 2 ^ 50 ∧
      Words.expand (2 ^ 50) hugeLast (2 ^ 60) {} = .ok (hugeLast.expand (2 ^ 60) {}) ∧
      (hugeLast.expand (2 ^ 60) {}).length ≤ max 10 (2 ^ 60 / 1000 + 1) := by
  have hparse : parse? "4000000000last4000000000h" = some hugeLast := by decide
  exact ⟨hparse, Nat.le_refl _, by decide, expand_safe hparse (Nat.le_refl _) (by decide)⟩

-- An amount of zero, which no token has, is divided by.
example : Words.expand 1 ⟨.single, .both, none, .time 0 .seconds, ""⟩ 1000 {} =
    .error .divisionByZero := by
  rfl

end Directive

end SpokenCountdown
