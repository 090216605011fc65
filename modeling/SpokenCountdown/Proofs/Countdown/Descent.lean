import SpokenCountdown.Proofs.Binary.Accuracy
import SpokenCountdown.Proofs.Countdown.Vanishing

/-!
# The percent never rises

The exact percent is the nearest thousandth, and the percent in double precision
is the double of that thousandth (`percent_shows`): the two operations before the
last rounding lose so little that only a percent in the middle of two thousandths
can come out as the lower one. Both keep the order of the remaining times. Ticks,
pauses and resumes keep the total and never give time back (`Transition.descends`),
so along them neither percent rises.
-/

namespace SpokenCountdown

namespace Countdown

/-- The remaining share in percent, to the nearest thousandth and a half away from
zero. -/
def exactPercent (remaining total : Nat) : ℚ :=
  round (100000 * remaining / total : ℚ) / 1000

/-- The number is the double nearest to the thousandths of the exact percent. Where
a percent lies in the middle of two thousandths, the lower one is allowed. -/
def Shows (shown : Binary) (remaining total : Nat) : Prop :=
  ∃ k : Nat, shown = .ofRatio .double false k 1000 ∧
    ((k : ℚ) / 1000 = exactPercent remaining total ∨
      (k : ℚ) / 1000 + 1 / 2000 = 100 * remaining / total)

section
variable {less more remaining total : Nat}

-- ---------------------------------------------------------------------------
-- In exact arithmetic
-- ---------------------------------------------------------------------------

theorem exactPercent_mono (h : less ≤ more) :
    exactPercent less total ≤ exactPercent more total := by
  unfold exactPercent
  rw [round_eq, round_eq]
  gcongr

theorem exactPercent_nonneg (remaining total : Nat) : 0 ≤ exactPercent remaining total := by
  have hzero : exactPercent 0 total = 0 := by simp [exactPercent]
  exact hzero ▸ exactPercent_mono (Nat.zero_le remaining)

theorem exactPercent_le (hpos : total ≠ 0) (h : remaining ≤ total) :
    exactPercent remaining total ≤ 100 := by
  have htotal : (total : ℚ) ≠ 0 := by exact_mod_cast hpos
  have hfull : exactPercent total total = 100 := by
    rw [exactPercent, mul_div_cancel_right₀ _ htotal, round_ofNat]
    norm_num
  exact hfull ▸ exactPercent_mono h

-- ---------------------------------------------------------------------------
-- In double precision
-- ---------------------------------------------------------------------------

theorem quotient_error (hr : remaining ≤ total) (ht : total ≠ 0 ∧ total < 2 ^ 53) :
    |(quotient remaining total).size - remaining / total| ≤ 1 / 2 ^ 53 := by
  have ht0 : (0 : ℚ) < total := by exact_mod_cast Nat.pos_of_ne_zero ht.1
  obtain ⟨a, b, hb, hab, hq⟩ := Binary.div_eq_ofRatio (Nat.lt_of_le_of_lt hr ht.2) ht.2 ht.1
  have hfinite := (quotient_le_one ht hr).1
  have hlt : (a : ℚ) / b < 2 ^ (1 : Int) := by
    rw [hab, div_lt_iff₀ ht0]
    exact_mod_cast (by omega : remaining < 2 * total)
  rw [quotient, hq] at hfinite ⊢
  rw [← hab]
  refine (Binary.ofRatio_error Binary.Format.double_proper hb hlt (by decide) hfinite).trans ?_
  norm_num [Binary.Format.double]

theorem product_error (hr : remaining ≤ total) (ht : total ≠ 0 ∧ total < 2 ^ 53) :
    |(Binary.mul .double (quotient remaining total) (.ofNat .double 100000)).size -
      100000 * remaining / total| < 1 / 2 ^ 35 := by
  obtain ⟨negative, c, d, hd, hcd, hmax, hp⟩ := product_eq_ofRatio hr ht
  have hlt : (c : ℚ) / d < 2 ^ (17 : Int) := hmax.trans_lt (by norm_num)
  have hfinite := Binary.isFinite_ofRatio negative Binary.Format.double_proper hd
    (hlt.le.trans (zpow_le_zpow_right₀ one_le_two (by decide)))
  have hround := Binary.ofRatio_error Binary.Format.double_proper hd hlt (by decide) hfinite
  rw [hcd] at hround
  have hquotient := quotient_error hr ht
  rw [hp]
  generalize (quotient remaining total).size = q at hround hquotient
  calc |(Binary.ofRatio .double negative c d).size - 100000 * remaining / total|
      = |((Binary.ofRatio .double negative c d).size - q * 100000) +
          100000 * (q - remaining / total)| := by ring_nf
    _ ≤ |(Binary.ofRatio .double negative c d).size - q * 100000| +
          |100000 * (q - remaining / total)| := abs_add_le ..
    _ ≤ 2 ^ (17 - 53 : Int) / 2 + 100000 * (1 / 2 ^ 53) := by
        rw [abs_mul, abs_of_pos (by norm_num : (0 : ℚ) < 100000)]
        gcongr
        exact hround
    _ < 1 / 2 ^ 35 := by norm_num

theorem percentThousandths_near (hr : remaining ≤ total) (hpos : total ≠ 0)
    (hmax : total ≤ 86400000) :
    (percentThousandths remaining total : ℚ) / 1000 = exactPercent remaining total ∨
      (percentThousandths remaining total : ℚ) / 1000 + 1 / 2000 = 100 * remaining / total := by
  have htotal : (0 : ℚ) < total := by exact_mod_cast Nat.pos_of_ne_zero hpos
  have hnear : |(Binary.mul .double (quotient remaining total) (.ofNat .double 100000)).size -
      (100000 * remaining : Nat) / total| < 1 / (2 * total) := by
    push_cast
    refine (product_error hr ⟨hpos, by omega⟩).trans_le ?_
    have hday : (total : ℚ) ≤ 86400000 := by exact_mod_cast hmax
    gcongr
    linarith
  have hthousandths : (percentThousandths remaining total : Int) =
      round (Binary.mul .double (quotient remaining total) (.ofNat .double 100000)).size :=
    Binary.roundedMagnitude_eq_round _
  have hround := Binary.round_near (Nat.pos_of_ne_zero hpos) hnear
  rw [← hthousandths] at hround
  push_cast at hround
  rcases hround with hexact | htie
  · refine .inl ?_
    rw [exactPercent, ← hexact, Int.cast_natCast]
  · refine .inr ?_
    calc (percentThousandths remaining total : ℚ) / 1000 + 1 / 2000
        = (percentThousandths remaining total + 1 / 2) / 1000 := by ring
      _ = 100 * remaining / total := by rw [htie]; ring

theorem percent_eq (hpos : total ≠ 0) : percent remaining total =
    .ofRatio .double false (percentThousandths remaining total) 1000 :=
  if_neg hpos

theorem percent_shows (hr : remaining ≤ total) (hpos : total ≠ 0) (hmax : total ≤ 86400000) :
    Shows (percent remaining total) remaining total :=
  ⟨_, percent_eq hpos, percentThousandths_near hr hpos hmax⟩

theorem percent_value (hr : remaining ≤ total) (hmax : total < 2 ^ 53) :
    (percent remaining total).isFinite = true ∧
      (percent remaining total).value = (percent remaining total).size := by
  by_cases hpos : total = 0
  · subst hpos
    exact ⟨rfl, rfl⟩
  · have hle := percentThousandths_le hr ⟨hpos, hmax⟩
    rw [percent_eq hpos]
    constructor
    · refine Binary.isFinite_ofRatio false Binary.Format.double_proper (by decide) ?_
      calc (percentThousandths remaining total : ℚ) / (1000 : Nat) ≤ 100000 / 1000 := by
            push_cast
            gcongr
            exact_mod_cast hle
        _ ≤ 2 ^ (7 : Int) := by norm_num
        _ ≤ 2 ^ (971 : Int) := zpow_le_zpow_right₀ one_le_two (by decide)
    · exact Binary.value_eq_size (Binary.isNegative_ofRatio ..)

theorem percent_mono (hle : less ≤ more) (hmore : more ≤ total) (hmax : total < 2 ^ 53) :
    (percent less total).value ≤ (percent more total).value := by
  obtain ⟨hfinite, hvalue⟩ := percent_value hmore hmax
  rw [hvalue, (percent_value (hle.trans hmore) hmax).2]
  by_cases hpos : total = 0
  · subst hpos
    exact le_rfl
  · rw [percent_eq hpos] at hfinite ⊢
    rw [percent_eq hpos]
    refine Binary.size_ofRatio_mono Binary.Format.double_proper (by decide) (by decide) ?_ hfinite
    gcongr
    exact percentThousandths_mono less total more total ⟨hpos, hmax⟩ ⟨hpos, hmax⟩
      (hle.trans hmore) hmore (Nat.mul_le_mul_right total hle)

theorem percent_nonneg (hr : remaining ≤ total) (hmax : total < 2 ^ 53) :
    0 ≤ (percent remaining total).value := by
  rw [(percent_value hr hmax).2]
  exact Binary.size_nonneg _

theorem percent_le (hr : remaining ≤ total) (hpos : total ≠ 0) (hmax : total < 2 ^ 53) :
    (percent remaining total).value ≤ 100 := by
  have hfull : (percent total total).value = 100 := by
    rw [(percent_value le_rfl hmax).2, percent_self hpos hmax]
    exact_mod_cast Binary.size_ofNat (n := 100) (by decide)
  exact hfull ▸ percent_mono hr le_rfl hmax

-- ---------------------------------------------------------------------------
-- Ticks, pauses and resumes
-- ---------------------------------------------------------------------------

theorem Ticked.remaining_le {session : Session} {anchor : Nat} {queue : Queue}
    {outcome : TickOutcome} {run : Run} (h : Ticked session anchor remaining queue outcome run) :
    run.remaining session.total ≤ remaining := by
  cases h with
  | waited | announced => exact Nat.le_refl _
  | finished => exact Nat.le_of_eq (session.finish_remaining ..)

theorem Transition.descends {c d : Countdown} {m : Move} {answer : Answer}
    (h : Transition c m.operation answer d) : d.total = c.total ∧ d.remaining ≤ c.remaining := by
  cases m with
  | tick now =>
    cases h with
    | refused | overlooked => exact ⟨rfl, Nat.le_refl _⟩
    | launched launches => cases launches
    | ticked way => exact ⟨rfl, Nat.le_trans way.remaining_le (elapse_le ..)⟩
  | pause now =>
    cases h with
    | refused => exact ⟨rfl, Nat.le_refl _⟩
    | launched launches => cases launches
    | paused => exact ⟨rfl, elapse_le ..⟩
  | resume now =>
    cases h with
    | refused => exact ⟨rfl, Nat.le_refl _⟩
    | launched launches => cases launches
    | resumed => exact ⟨rfl, Nat.le_refl _⟩

theorem Sound.descends {c : Countdown} (h : c.Sound) (moves : List Move) :
    (c.after (moves.map (·.operation))).total = c.total ∧
      (c.after (moves.map (·.operation))).remaining ≤ c.remaining := by
  induction moves generalizing c with
  | nil => exact ⟨rfl, Nat.le_refl _⟩
  | cons m rest ih =>
    obtain ⟨htotal, hremaining⟩ := (perform_transition _ m.operation).descends
    obtain ⟨htotals, hremains⟩ := ih (h.perform m.operation)
    exact ⟨htotals.trans htotal, hremains.trans hremaining⟩

theorem Sound.total_le {c : Countdown} (h : c.Sound) : c.total ≤ 86400000 := by
  cases c with
  | unset => exact Nat.zero_le _
  | loaded session run => exact h.1.bounded

theorem register_of_history (history more : List Operation) :
    ∃ changes added, ({} : Register).after history =
        (Countdown.unset.after history).register changes ∧
      (({} : Register).after history).after more =
        ((Countdown.unset.after history).after more).register added := by
  obtain ⟨changes, hafter⟩ := register_after .unset [] unset_sound history
  obtain ⟨added, hmore⟩ := register_after _ ([] ++ changes) (unset_sound.after history) more
  rw [Register.empty_eq, hafter]
  exact ⟨_, _, rfl, hmore⟩

theorem remaining_register (c : Countdown) (changes : List Change) :
    (c.register changes).remaining = c.remaining := rfl

end

/-- Of a total of at most a day less time is no greater percent, in exact arithmetic
as in double precision. The register shows the percent of its remaining time after
every history; whatever ticks, pauses and resumes follow, at instants in any order,
neither its remaining time nor its percent rises. -/
theorem percent_never_rises (total less more : Nat) (hpos : 1 ≤ total) (hmax : total ≤ 86400000)
    (hless : less ≤ more) (hmore : more ≤ total) (history : List Operation) (moves : List Move) :
    (0 ≤ exactPercent less total ∧ exactPercent less total ≤ exactPercent more total ∧
      exactPercent more total ≤ 100) ∧
    (0 ≤ (percent less total).value ∧ (percent less total).value ≤ (percent more total).value ∧
      (percent more total).value ≤ 100) ∧
    ((percent more total).isFinite = true ∧ Shows (percent more total) more total) ∧
      let r := ({} : Register).after history
      let q := r.after (moves.map (·.operation))
      (r.percent = percent r.remaining r.total ∧ q.percent = percent q.remaining q.total) ∧
        q.total = r.total ∧ q.remaining ≤ r.remaining ∧
          q.percent.value ≤ r.percent.value ∧
            exactPercent q.remaining q.total ≤ exactPercent r.remaining r.total := by
  have hpos : total ≠ 0 := by omega
  have hword : total < 2 ^ 53 := by omega
  refine ⟨⟨?_, ?_, ?_⟩, ⟨?_, ?_, ?_⟩, ⟨?_, ?_⟩, ?_⟩
  · exact exactPercent_nonneg ..
  · exact exactPercent_mono hless
  · exact exactPercent_le hpos hmore
  · exact percent_nonneg (hless.trans hmore) hword
  · exact percent_mono hless hmore hword
  · exact percent_le hmore hpos hword
  · exact (percent_value hmore hword).1
  · exact percent_shows hmore hpos hmax
  · intro r q
    have hsound : (Countdown.unset.after history).Sound := unset_sound.after history
    obtain ⟨changes, added, hr, hq⟩ := register_of_history history (moves.map (·.operation))
    have hr : r = _ := hr
    have hq : q = _ := hq
    clear_value q r
    subst hr hq
    obtain ⟨htotal, hremaining⟩ := hsound.descends moves
    have hword := Nat.lt_of_le_of_lt hsound.total_le (by decide : 86400000 < 2 ^ 53)
    have hmono := percent_mono hremaining (remaining_le_total hsound) hword
    simp only [total_register]
    refine ⟨⟨rfl, rfl⟩, htotal, hremaining, ?_, ?_⟩
    · simpa only [register, percentLeft, htotal] using hmono
    · rw [htotal]
      exact exactPercent_mono hremaining

/-- The clock goes back between the ticks, and the pause counts what the last tick
has not seen. -/
theorem percent_never_rises_pause :
    let moves : List Move := [.tick 7000000, .tick 6000000, .pause 8000500, .resume 20000000]
    let r := ({} : Register).after [.configure tenSeconds, .start 5000000]
    let q := r.after (moves.map (·.operation))
    (percent 1 3).value ≤ (percent 2 3).value ∧
      (r.remaining = 10000 ∧ q.remaining = 7000 ∧ q.percent = .ofNat .double 70) ∧
        q.percent.value ≤ r.percent.value := by
  intro moves r q
  obtain ⟨-, ⟨-, hthirds, -⟩, -, ⟨-, hpercent⟩, -, -, hdrop, -⟩ :=
    percent_never_rises 3 1 2 (by decide) (by decide) (by decide) (by decide)
      [.configure tenSeconds, .start 5000000] moves
  obtain ⟨changes, added, hr, hq⟩ :=
    register_of_history [.configure tenSeconds, .start 5000000] (moves.map (·.operation))
  rw [entered_of_session tenSeconds_session rfl 5000000] at hr hq
  have hfull : r.remaining = 10000 := congrArg (·.remaining) hr
  have hq : q = _ := hq
  have hleft : q.remaining = 7000 ∧ q.total = 10000 := by
    rw [hq, total_register, remaining_register]
    decide +kernel
  refine ⟨hthirds, ⟨hfull, hleft.1, hpercent.trans ?_⟩, hdrop⟩
  rw [hleft.1, hleft.2]
  decide +kernel

end Countdown

end SpokenCountdown
