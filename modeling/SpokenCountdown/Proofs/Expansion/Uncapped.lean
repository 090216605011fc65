import SpokenCountdown.Proofs.Expansion.Safety

/-!
# The caps on counts are invisible

A count is cut before anything is multiplied by it, each kind of directive in its
own way. None of that shows: within the countdown, the offsets of a directive are
exactly those that it asks for, counted over the integers and without a cap:
`expand_uncapped`.
-/

namespace SpokenCountdown

/-- The offset of what is a span away from the anchor, below zero if that is before the start. -/
def Anchor.offset (anchor : Anchor) (total span : Int) : Int :=
  match anchor with
  | .first => total - span
  | .last | .both => span

namespace Directive

/-- A multiple of a step from the anchor, up to the limit if there is one. -/
def IsMultiple (anchor : Anchor) (total step : Int) (limit : Option Nat) (offset : Int) : Prop :=
  ∃ k : Int, 1 ≤ k ∧ (∀ n ∈ limit, k ≤ n) ∧ offset = anchor.offset total (k * step)

def IsPaired (total cadence offset : Int) : Prop :=
  ∃ k : Int, 1 ≤ k ∧ 2 * (k * cadence) ≤ total ∧
    (offset = k * cadence ∨ offset = total - k * cadence)

/-- The offsets that a time directive asks for, whether or not there is room for them. -/
def Asks (d : Directive) (amount : Nat) (unit : TimeUnit) (total offset : Int) : Prop :=
  let interval : Int := amount * unit.milliseconds
  match d.quantifier, d.anchor with
  | .single, anchor => IsMultiple anchor total interval (some d.count) offset
  | .all, .both => IsPaired total interval offset
  | .every, .both => IsPaired total (interval * d.count) offset
  | .all, anchor => IsMultiple anchor total unit.milliseconds (some amount) offset
  | .every, anchor => IsMultiple anchor total interval d.multiplier offset

end Directive

open Directive (IsMultiple IsPaired)

namespace Expansion

section
variable {span cadence count most total amount k : Nat} {x : Int} {anchor : Anchor}
  {limit : Option Nat} {phrases : Phrases} {a : Announcement} {d : Directive} {unit : TimeUnit}

-- ---------------------------------------------------------------------------
-- Multiples
-- ---------------------------------------------------------------------------

theorem anchored_offset (h : anchored span anchor total phrases = some a) :
    (a.offset : Int) = anchor.offset total span := by
  unfold anchored at h
  split at h
  · split at h
    · rename_i hle
      obtain rfl := Option.some.inj h
      exact Int.ofNat_sub hle
    · cases h
  all_goals
    obtain rfl := Option.some.inj h
    rfl

theorem exists_anchored (anchor : Anchor) (phrases : Phrases) (hle : span ≤ total) :
    ∃ a, anchored span anchor total phrases = some a := by
  cases anchor with
  | first => exact ⟨_, if_pos hle⟩
  | last | both => exact ⟨_, rfl⟩

/-- A span that is announced within the countdown is shorter than it. -/
theorem span_lt (low : 0 < x) (high : x < total) (hx : x = anchor.offset total span) :
    span < total := by
  cases anchor <;> simp only [Anchor.offset] at hx <;> omega

theorem mem_multiples : a ∈ multiples span count anchor total phrases ↔
    ∃ k, 1 ≤ k ∧ k ≤ count ∧ anchored (k * span) anchor total phrases = some a := by
  simp only [multiples, List.mem_filterMap, List.mem_range]
  constructor
  · rintro ⟨k, hk, ha⟩
    exact ⟨k + 1, Nat.succ_pos k, hk, ha⟩
  · rintro ⟨k, low, high, ha⟩
    refine ⟨k - 1, by omega, ?_⟩
    rwa [Nat.sub_add_cancel low]

theorem le_wanted_iff :
    k ≤ (limit.map (min · most)).getD most ↔ k ≤ most ∧ ∀ n ∈ limit, k ≤ n := by
  cases limit with
  | none => simp
  | some n => simp [and_comm]

theorem offset_multiples_iff (positive : 0 < span) (low : 0 < x) (high : x < total)
    (hcount : ∀ k ≤ total / span, k ≤ count ↔ ∀ n ∈ limit, k ≤ n) :
    (∃ a ∈ multiples span count anchor total phrases, (a.offset : Int) = x) ↔
      IsMultiple anchor total span limit x := by
  -- what is within the countdown has a factor that there is room for
  have hroom {k : Nat} (hx : x = anchor.offset total (k * span : Nat)) : k ≤ total / span :=
    (Nat.le_div_iff_mul_le positive).mpr (Nat.le_of_lt (span_lt low high hx))
  constructor
  · rintro ⟨a, ha, hoffset⟩
    obtain ⟨k, hlow, hk, hanchored⟩ := mem_multiples.mp ha
    have hx := hoffset.symm.trans (anchored_offset hanchored)
    have hlimit := (hcount k (hroom hx)).mp hk
    refine ⟨k, by omega, fun n hn => Int.ofNat_le.mpr (hlimit n hn), ?_⟩
    rw [hx, Int.natCast_mul]
  · rintro ⟨k, hlow, hlimit, hx⟩
    obtain ⟨k, rfl⟩ := Int.eq_ofNat_of_zero_le (Int.le_trans (by decide) hlow)
    rw [← Int.natCast_mul] at hx
    have hk := (hcount k (hroom hx)).mpr fun n hn => Int.ofNat_le.mp (hlimit n hn)
    obtain ⟨a, ha⟩ := exists_anchored anchor phrases (Nat.le_of_lt (span_lt low high hx))
    exact ⟨a, mem_multiples.mpr ⟨k, Int.ofNat_le.mp hlow, hk, ha⟩,
      (anchored_offset ha).trans hx.symm⟩

-- ---------------------------------------------------------------------------
-- Pairs
-- ---------------------------------------------------------------------------

theorem offset_symmetric_iff (positive : 0 < cadence) :
    (∃ a ∈ symmetric cadence total phrases, (a.offset : Int) = x) ↔
      IsPaired total cadence x := by
  simp only [mem_symmetric positive]
  constructor
  · rintro ⟨a, ⟨k, hle, rfl | rfl⟩, rfl⟩
    · exact ⟨k + 1, by omega, by exact_mod_cast hle, .inl (Int.natCast_mul ..)⟩
    · exact ⟨k + 1, by omega, by exact_mod_cast hle, .inr (Int.ofNat_sub (by omega))⟩
  · rintro ⟨k, hlow, hle, hx⟩
    obtain ⟨k, rfl⟩ : ∃ n : Nat, k = n + 1 := ⟨(k - 1).toNat, by omega⟩
    have hle : 2 * ((k + 1) * cadence) ≤ total := by exact_mod_cast hle
    rcases hx with rfl | rfl
    · exact ⟨_, ⟨k, hle, .inl rfl⟩, Int.natCast_mul ..⟩
    · exact ⟨_, ⟨k, hle, .inr rfl⟩, Int.ofNat_sub (by omega)⟩

-- ---------------------------------------------------------------------------
-- Every directive
-- ---------------------------------------------------------------------------

theorem offset_times_iff (h : d.WellFormed) (hform : d.form = .time amount unit)
    (low : 0 < x) (high : x < total) :
    (∃ a ∈ times d amount unit total phrases, (a.offset : Int) = x) ↔
      d.Asks amount unit total x := by
  have hwell := h.1
  rw [hform] at hwell
  have hunit : 0 < unit.milliseconds := Nat.lt_of_lt_of_le (by decide) unit.milliseconds_bounds.1
  have hinterval : 0 < amount * unit.milliseconds := Nat.mul_pos hwell.1 hunit
  have hcadence := cadence_positive h hform
  have hcast : ((amount * unit.milliseconds : Nat) : Int) = amount * unit.milliseconds :=
    Int.natCast_mul ..
  obtain ⟨quantifier, anchor, multiplier, form, raw⟩ := d
  simp only [times, Directive.Asks, ← hcast]
  cases quantifier with
  | single =>
    refine offset_multiples_iff hinterval low high fun k hk => ?_
    simp [Nat.le_succ_of_le hk]
  | all =>
    cases anchor with
    | both => exact offset_symmetric_iff hinterval
    | first | last =>
      simp only [List.mem_reverse]
      refine offset_multiples_iff hunit low high fun k hk => ?_
      simp [hk]
  | every =>
    cases anchor with
    | both =>
      rw [← Int.natCast_mul]
      exact offset_symmetric_iff hcadence
    | first | last =>
      simp only [List.mem_reverse]
      refine offset_multiples_iff hinterval low high fun k hk => ?_
      rw [le_wanted_iff, and_iff_right hk]

end

end Expansion

namespace Directive

variable {d : Directive} {amount total rounds : Nat} {unit : TimeUnit}

/-- A well-formed time directive is expanded on words without a fault, and between
the end and the start of the countdown stands what it asks for and nothing else. -/
theorem expand_uncapped (h : d.WellFormed) (hform : d.form = .time amount unit)
    (hpositive : 0 < total) (htotal : total ≤ 2 ^ 60) (hrounds : total / 2000 < rounds)
    (phrases : Phrases) :
    Words.expand rounds d total phrases = .ok (d.expand total phrases) ∧
      ∀ x : Int, 0 < x → x < total →
        ((∃ a ∈ d.expand total phrases, (a.offset : Int) = x) ↔ d.Asks amount unit total x) := by
  refine ⟨h.expand_eq htotal hrounds, fun x low high => ?_⟩
  rw [Expansion.expand_time hform hpositive]
  exact Expansion.offset_times_iff h hform low high

theorem expand_uncapped_huge :
    hugeLast.WellFormed ∧ hugeLast.form = .time 4000000000 .hours ∧ 0 < 2 ^ 60 ∧
      2 ^ 60 ≤ 2 ^ 60 ∧ 2 ^ 60 / 2000 < 2 ^ 50 ∧
      Words.expand (2 ^ 50) hugeLast (2 ^ 60) {} = .ok (hugeLast.expand (2 ^ 60) {}) ∧
      ∀ x : Int, 0 < x → x < (2 ^ 60 : Nat) →
        ((∃ a ∈ hugeLast.expand (2 ^ 60) {}, (a.offset : Int) = x) ↔
          hugeLast.Asks 4000000000 .hours (2 ^ 60 : Nat) x) := by
  have hparse : parse? "4000000000last4000000000h" = some hugeLast := by decide
  have hwell : hugeLast.WellFormed := (parse?_eq_some_iff.mp hparse).2.wellFormed
  exact ⟨hwell, rfl, by decide, Nat.le_refl _, by decide,
    expand_uncapped hwell rfl (by decide) (Nat.le_refl _) (by decide) {}⟩

end Directive

end SpokenCountdown
