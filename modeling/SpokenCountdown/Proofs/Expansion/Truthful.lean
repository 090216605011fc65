import SpokenCountdown.Expansion
import SpokenCountdown.Proofs.Directive.Parsing
import SpokenCountdown.Proofs.Phrasing.Spoken

/-!
# Announcements that tell the truth

An announcement of a time says how much is left or how much is gone. All of them
do, but for one kind: `all` and `every` without an anchor speak a time gone below
twenty seconds without unit and ending, as if it were a time left. It is settled
when that happens: `expand_truthful_iff`.
-/

namespace SpokenCountdown

namespace Announcement

def FromEnd (a : Announcement) : Prop :=
  ∃ spoken, Spoken.read? a.message = some spoken ∧ a.offset = spoken.span ∧
    (spoken.ending = [] ∨ spoken.ending = ({} : Phrases).toGo.toList)

/-- What the message names is gone when it is spoken, and it says so. -/
def FromStart (total : Nat) (a : Announcement) : Prop :=
  ∃ spoken, Spoken.read? a.message = some spoken ∧ a.offset ≤ total ∧
    total - a.offset = spoken.span ∧ spoken.unitNamed = true ∧
    spoken.ending = ({} : Phrases).gone.toList

def Truthful (total : Nat) (a : Announcement) : Prop :=
  a.FromEnd ∨ a.FromStart total

/-- A time gone that sounds like a time left. -/
def Mistakable (total : Nat) (a : Announcement) : Prop :=
  ∃ spoken, Spoken.read? a.message = some spoken ∧ a.offset ≤ total ∧
    total - a.offset = spoken.span ∧ spoken.span < Phrasing.secondsOnlyBelow ∧
    spoken.ending = []

end Announcement

theorem TimeUnit.milliseconds_bounds (unit : TimeUnit) :
    1000 ≤ unit.milliseconds ∧ unit.milliseconds ≤ 3600000 := by
  cases unit <;> decide

namespace Directive

def cadence (d : Directive) (amount : Nat) (unit : TimeUnit) : Nat :=
  match d.quantifier with
  | .every => amount * unit.milliseconds * d.count
  | .all | .single => amount * unit.milliseconds

/-- Pairs from both ends, the first of them below twenty seconds and off the midpoint. -/
structure Mumbles (d : Directive) (amount : Nat) (unit : TimeUnit) (total : Nat) : Prop where
  repeated : d.quantifier ≠ .single
  unanchored : d.anchor = .both
  short : d.cadence amount unit < Phrasing.secondsOnlyBelow
  offMidpoint : 2 * d.cadence amount unit < total

theorem WellFormed.count_pos {d : Directive} (h : d.WellFormed) : 0 < d.count := by
  unfold count
  cases hd : d.multiplier with
  | none => decide
  | some m => exact (h.2 m hd).1

end Directive

open Phrasing (announcement timeMessage)

namespace Expansion

section
variable {span cadence count total amount : Nat} {anchor : Anchor} {phrases : Phrases}
  {a : Announcement} {d : Directive} {unit : TimeUnit}

-- ---------------------------------------------------------------------------
-- What a time directive announces
-- ---------------------------------------------------------------------------

inductive Mark (total : Nat) (phrases : Phrases) : Announcement → Prop where
  | fromEnd {span : Nat} (whole : 1000 ∣ span) :
      Mark total phrases (announcement span (timeMessage span phrases.toGo false))
  | fromStart {span : Nat} (whole : 1000 ∣ span) (hle : span ≤ total) :
      Mark total phrases (announcement (total - span) (timeMessage span phrases.gone true))

def mirrored (span total : Nat) (phrases : Phrases) : Announcement :=
  announcement (total - span) (timeMessage span phrases.gone false)

theorem wanted_le (wanted : Option Nat) (most : Nat) :
    (wanted.map (min · most)).getD most ≤ most := by
  cases wanted with
  | none => exact Nat.le_refl _
  | some m => exact Nat.min_le_right _ _

theorem dvd_milliseconds (amount : Nat) (unit : TimeUnit) : 1000 ∣ amount * unit.milliseconds := by
  refine Nat.dvd_mul_left_of_dvd ?_ amount
  cases unit <;> decide

theorem anchored_mark (whole : 1000 ∣ span) (h : anchored span anchor total phrases = some a) :
    Mark total phrases a := by
  unfold anchored at h
  split at h
  · split at h
    · rename_i hle
      obtain rfl := Option.some.inj h
      exact .fromStart whole hle
    · cases h
  all_goals
    obtain rfl := Option.some.inj h
    exact .fromEnd whole

theorem multiples_mark (whole : 1000 ∣ span) (h : a ∈ multiples span count anchor total phrases) :
    Mark total phrases a := by
  obtain ⟨k, -, hk⟩ := List.mem_filterMap.mp h
  exact anchored_mark (Nat.dvd_mul_left_of_dvd whole (k + 1)) hk

theorem mem_symmetric (positive : 0 < cadence) : a ∈ symmetric cadence total phrases ↔
    ∃ k, 2 * ((k + 1) * cadence) ≤ total ∧
      (a = announcement ((k + 1) * cadence) (timeMessage ((k + 1) * cadence) phrases.toGo false) ∨
        a = mirrored ((k + 1) * cadence) total phrases) := by
  have hrange (k : Nat) : k < total / 2 / cadence ↔ 2 * ((k + 1) * cadence) ≤ total := by
    rw [Nat.lt_iff_add_one_le, Nat.le_div_iff_mul_le positive, Nat.le_div_iff_mul_le (by decide),
      Nat.mul_comm]
  simp only [symmetric, List.mem_flatMap, List.mem_range, hrange, List.mem_cons, List.not_mem_nil,
    or_false]
  rfl

theorem times_eq_symmetric (repeated : d.quantifier ≠ .single) (unanchored : d.anchor = .both) :
    times d amount unit total phrases = symmetric (d.cadence amount unit) total phrases := by
  obtain ⟨quantifier, anchor, multiplier, form, raw⟩ := d
  cases unanchored
  cases quantifier with
  | single => exact absurd rfl repeated
  | all | every => rfl

/-- Whatever is no pairs is multiples of a span, and all but one of them fit. -/
theorem times_perm_multiples (h : ¬ (d.quantifier ≠ .single ∧ d.anchor = .both)) (amount : Nat)
    (unit : TimeUnit) (total : Nat) (phrases : Phrases) :
    ∃ span count, (span = amount * unit.milliseconds ∨ span = unit.milliseconds) ∧
      count ≤ total / span + 1 ∧
      (times d amount unit total phrases).Perm (multiples span count d.anchor total phrases) := by
  unfold times
  dsimp only
  split
  · exact ⟨_, _, .inl rfl, Nat.min_le_right _ _, .refl _⟩
  · rename_i hquantifier hanchor
    exact absurd ⟨by simp [hquantifier], hanchor⟩ h
  · rename_i hquantifier hanchor
    exact absurd ⟨by simp [hquantifier], hanchor⟩ h
  · exact ⟨_, _, .inr rfl, Nat.le_succ_of_le (Nat.min_le_right _ _), List.reverse_perm _⟩
  · exact ⟨_, _, .inl rfl, Nat.le_succ_of_le (wanted_le _ _), List.reverse_perm _⟩

theorem times_mark (h : ¬ (d.quantifier ≠ .single ∧ d.anchor = .both))
    (ha : a ∈ times d amount unit total phrases) : Mark total phrases a := by
  have wholeUnit : 1000 ∣ unit.milliseconds := by
    have hone := dvd_milliseconds 1 unit
    rwa [Nat.one_mul] at hone
  obtain ⟨span, count, hspan, -, hperm⟩ := times_perm_multiples h amount unit total phrases
  have ha := hperm.mem_iff.mp ha
  rcases hspan with rfl | rfl
  · exact multiples_mark (dvd_milliseconds amount unit) ha
  · exact multiples_mark wholeUnit ha

-- ---------------------------------------------------------------------------
-- What is read back
-- ---------------------------------------------------------------------------

theorem roundSeconds_whole (whole : 1000 ∣ span) : Phrasing.roundSeconds span * 1000 = span := by
  simp only [Phrasing.roundSeconds]
  omega

theorem read?_toGo (whole : 1000 ∣ span) :
    Spoken.read? (timeMessage span ({} : Phrases).toGo false) =
      some ⟨span, decide (Phrasing.bareUpTo < span),
        if span < Phrasing.secondsOnlyBelow then [] else ({} : Phrases).toGo.toList⟩ := by
  rw [Spoken.read?_timeMessage (by decide), roundSeconds_whole whole]
  simp only [Bool.false_or, and_true]

theorem read?_gone (whole : 1000 ∣ span) (force : Bool) :
    Spoken.read? (timeMessage span ({} : Phrases).gone force) =
      some ⟨span, force || decide (Phrasing.bareUpTo < span),
        if span < Phrasing.secondsOnlyBelow ∧ force = false then []
          else ({} : Phrases).gone.toList⟩ := by
  rw [Spoken.read?_timeMessage (by decide), roundSeconds_whole whole]

theorem Mark.truthful (h : Mark total {} a) : a.Truthful total := by
  cases h with
  | @fromEnd span whole =>
    refine .inl ⟨_, read?_toGo whole, rfl, ?_⟩
    dsimp only
    split
    · exact .inl rfl
    · exact .inr rfl
  | @fromStart span whole hle =>
    refine .inr ⟨_, read?_gone whole true, Nat.sub_le total span, Nat.sub_sub_self hle, rfl, ?_⟩
    simp

theorem mirrored_truthful_iff (whole : 1000 ∣ span) (hle : 2 * span ≤ total) :
    (mirrored span total {}).Truthful total ↔
      ¬ (span < Phrasing.secondsOnlyBelow ∧ 2 * span < total) := by
  have hread := read?_gone whole false
  have hoffset : (mirrored span total {}).offset = total - span := rfl
  constructor
  · rintro htruthful ⟨short, offMidpoint⟩
    rcases htruthful with ⟨spoken, hspoken, hspan, -⟩ | ⟨spoken, hspoken, -, -, -, hending⟩
    · cases hread.symm.trans hspoken
      rw [hoffset] at hspan
      dsimp only at hspan
      omega
    · cases hread.symm.trans hspoken
      simp [short] at hending
  · intro h
    by_cases short : span < Phrasing.secondsOnlyBelow
    · have midpoint : 2 * span = total := by omega
      refine .inl ⟨_, hread, ?_, .inl (by simp [short])⟩
      rw [hoffset]
      dsimp only
      omega
    · have hbare : Phrasing.bareUpTo < span :=
        Nat.lt_of_lt_of_le (by decide) (Nat.le_of_not_lt short)
      refine .inr ⟨_, hread, Nat.sub_le total span, Nat.sub_sub_self (by omega), ?_, ?_⟩
      · simp [hbare]
      · simp [short]

theorem mirrored_mistakable (whole : 1000 ∣ span) (hle : 2 * span ≤ total)
    (short : span < Phrasing.secondsOnlyBelow) : (mirrored span total {}).Mistakable total := by
  refine ⟨_, read?_gone whole false, Nat.sub_le total span, Nat.sub_sub_self (by omega), short, ?_⟩
  simp [short]

/-- A bare number, or a number of seconds without an ending, is what is left. -/
theorem offset_of_number {n : Nat} (h : a.Truthful total)
    (hmessage : a.message = Phrasing.number n ∨ a.message = Phrasing.number n ++ " seconds") :
    a.offset = n * 1000 := by
  have hread (spoken : Spoken) (hspoken : Spoken.read? a.message = some spoken) :
      spoken.span = n * 1000 ∧ (spoken.unitNamed = false ∨ spoken.ending = []) ∨
        spoken.ending = ['s'] := by
    rcases hmessage with hmessage | hmessage
    · have hbare : Spoken.read? a.message = some ⟨n * 1000, false, []⟩ := by
        rw [hmessage]
        exact Spoken.read?_number String.toList_ofList
      cases hbare.symm.trans hspoken
      exact .inl ⟨rfl, .inl rfl⟩
    · by_cases hone : n = 1
      · subst hone
        rw [hmessage] at hspoken
        have hplural : Spoken.read? (Phrasing.number 1 ++ " seconds") = some ⟨1000, true, ['s']⟩ := by
          decide
        cases hplural.symm.trans hspoken
        exact .inr rfl
      · have hseconds : Spoken.read? a.message = some ⟨n * 1000, true, []⟩ := by
          rw [hmessage]
          exact Spoken.read?_seconds (Spoken.toList_seconds hone) nofun
        cases hseconds.symm.trans hspoken
        exact .inl ⟨rfl, .inr rfl⟩
  rcases h with ⟨spoken, hspoken, hspan, hending⟩ | ⟨spoken, hspoken, -, -, hunit, hending⟩
  · rcases hread spoken hspoken with ⟨hnumber, -⟩ | hs
    · rw [hspan, hnumber]
    · rw [hs] at hending
      rcases hending with h | h <;> cases h
  · rcases hread spoken hspoken with ⟨-, hbare | hnil⟩ | hs
    · rw [hbare] at hunit
      cases hunit
    · rw [hnil] at hending
      cases hending
    · rw [hs] at hending
      cases hending

-- ---------------------------------------------------------------------------
-- Every directive
-- ---------------------------------------------------------------------------

theorem whole_cadence (d : Directive) (amount : Nat) (unit : TimeUnit) :
    1000 ∣ d.cadence amount unit := by
  have whole := dvd_milliseconds amount unit
  unfold Directive.cadence
  split
  · exact Nat.dvd_mul_right_of_dvd whole d.count
  · exact whole
  · exact whole

theorem cadence_positive (h : d.WellFormed) (hform : d.form = .time amount unit) :
    0 < d.cadence amount unit := by
  have hwell := h.1
  rw [hform] at hwell
  have hunit : 0 < unit.milliseconds := Nat.lt_of_lt_of_le (by decide) unit.milliseconds_bounds.1
  have hinterval : 0 < amount * unit.milliseconds := Nat.mul_pos hwell.1 hunit
  unfold Directive.cadence
  split
  · exact Nat.mul_pos hinterval h.count_pos
  · exact hinterval
  · exact hinterval

theorem expand_time (hform : d.form = .time amount unit) (hpositive : 0 < total) :
    d.expand total phrases = times d amount unit total phrases := by
  unfold Directive.expand
  rw [if_neg (Nat.ne_of_gt hpositive), hform]

theorem times_truthful_iff (positive : 0 < d.cadence amount unit) :
    (∀ a ∈ times d amount unit total {}, a.Truthful total) ↔ ¬ d.Mumbles amount unit total := by
  by_cases hpairs : d.quantifier ≠ .single ∧ d.anchor = .both
  · obtain ⟨repeated, unanchored⟩ := hpairs
    rw [times_eq_symmetric repeated unanchored]
    have whole := whole_cadence d amount unit
    constructor
    · intro h hmumbles
      have hfirst : mirrored (d.cadence amount unit) total {} ∈
          symmetric (d.cadence amount unit) total {} := by
        refine (mem_symmetric positive).mpr ⟨0, ?_, .inr ?_⟩
        · rw [Nat.zero_add, Nat.one_mul]
          exact Nat.le_of_lt hmumbles.offMidpoint
        · rw [Nat.zero_add, Nat.one_mul]
      have htruthful := h _ hfirst
      rw [mirrored_truthful_iff whole (Nat.le_of_lt hmumbles.offMidpoint)] at htruthful
      exact htruthful ⟨hmumbles.short, hmumbles.offMidpoint⟩
    · intro h a ha
      obtain ⟨k, hle, rfl | rfl⟩ := (mem_symmetric positive).mp ha
      · exact Mark.truthful (.fromEnd (Nat.dvd_mul_left_of_dvd whole (k + 1)))
      · rw [mirrored_truthful_iff (Nat.dvd_mul_left_of_dvd whole (k + 1)) hle]
        rintro ⟨short, offMidpoint⟩
        -- the first pair is nearer to the ends than this one
        have hfirst : d.cadence amount unit ≤ (k + 1) * d.cadence amount unit :=
          Nat.le_mul_of_pos_left _ (Nat.succ_pos k)
        exact h ⟨repeated, unanchored, by omega, by omega⟩
  · constructor
    · intro _ hmumbles
      exact hpairs ⟨hmumbles.repeated, hmumbles.unanchored⟩
    · intro _ a ha
      exact (times_mark hpairs ha).truthful

theorem times_truthful_or_mistakable (positive : 0 < d.cadence amount unit)
    (ha : a ∈ times d amount unit total {}) : a.Truthful total ∨ a.Mistakable total := by
  by_cases hpairs : d.quantifier ≠ .single ∧ d.anchor = .both
  · obtain ⟨repeated, unanchored⟩ := hpairs
    rw [times_eq_symmetric repeated unanchored] at ha
    have whole (k : Nat) := Nat.dvd_mul_left_of_dvd (whole_cadence d amount unit) (k + 1)
    obtain ⟨k, hle, rfl | rfl⟩ := (mem_symmetric positive).mp ha
    · exact .inl (Mark.truthful (.fromEnd (whole k)))
    · by_cases short : (k + 1) * d.cadence amount unit < Phrasing.secondsOnlyBelow
      · exact .inr (mirrored_mistakable (whole k) hle short)
      · exact .inl ((mirrored_truthful_iff (whole k) hle).mpr fun h => short h.1)
  · exact .inl (times_mark hpairs ha).truthful

end

end Expansion

namespace Directive

variable {token : String} {d : Directive} {amount total : Nat} {unit : TimeUnit}

/-- All announcements of a time directive tell the truth unless it mumbles, and
then the others sound like a time left that is gone. -/
theorem expand_truthful_iff (hparse : parse? token = some d) (hform : d.form = .time amount unit)
    (hpositive : 0 < total) :
    ((∀ a ∈ d.expand total {}, a.Truthful total) ↔ ¬ d.Mumbles amount unit total) ∧
      (∀ a ∈ d.expand total {}, a.Truthful total ∨ a.Mistakable total) ∧
      (¬ d.Mumbles amount unit total → ∀ a ∈ d.expand total {}, ∀ n,
        a.message = Phrasing.number n ∨ a.message = Phrasing.number n ++ " seconds" →
          a.offset = n * 1000) := by
  have hwell : d.WellFormed := (parse?_eq_some_iff.mp hparse).2.wellFormed
  have positive := Expansion.cadence_positive hwell hform
  rw [Expansion.expand_time hform hpositive]
  have htruthful : _ ↔ ¬ d.Mumbles amount unit total := Expansion.times_truthful_iff positive
  refine ⟨htruthful, fun a ha => Expansion.times_truthful_or_mistakable positive ha, ?_⟩
  intro hmumbles a ha n hmessage
  exact Expansion.offset_of_number (htruthful.mpr hmumbles a ha) hmessage

/-- Every five seconds, from both ends. -/
def fives : Directive := ⟨.all, .both, none, .time 5 .seconds, "all5s"⟩

theorem expand_truthful_iff_fives :
    parse? "all5s" = some fives ∧ fives.form = .time 5 .seconds ∧ 0 < 12000 ∧
      ((∀ a ∈ fives.expand 12000 {}, a.Truthful 12000) ↔ ¬ fives.Mumbles 5 .seconds 12000) ∧
      (∀ a ∈ fives.expand 12000 {}, a.Truthful 12000 ∨ a.Mistakable 12000) ∧
      (¬ fives.Mumbles 5 .seconds 12000 → ∀ a ∈ fives.expand 12000 {}, ∀ n,
        a.message = Phrasing.number n ∨ a.message = Phrasing.number n ++ " seconds" →
          a.offset = n * 1000) := by
  have hparse : parse? "all5s" = some fives := by decide
  exact ⟨hparse, rfl, by decide, expand_truthful_iff hparse rfl (by decide)⟩

/-- Five seconds gone of twelve are spoken as a bare five when seven remain. -/
theorem fives_mistakable :
    ¬ ∀ token d amount unit total, parse? token = some d → d.form = .time amount unit →
      0 < total → ∀ a ∈ d.expand total {}, a.Truthful total := by
  intro h
  have hparse : parse? "all5s" = some fives := by decide
  have hgone : Phrasing.announcement 7000 "5" ∈ fives.expand 12000 {} := by decide
  have hread : Spoken.read? (Phrasing.announcement 7000 "5").message = some ⟨5000, false, []⟩ := by
    decide
  rcases h _ _ _ _ 12000 hparse rfl (by decide) _ hgone with
    ⟨spoken, hspoken, hoffset, -⟩ | ⟨spoken, hspoken, -, -, hunit, -⟩
  · cases hread.symm.trans hspoken
    cases hoffset
  · cases hread.symm.trans hspoken
    cases hunit

end Directive

end SpokenCountdown
