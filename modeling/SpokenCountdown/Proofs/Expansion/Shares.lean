import SpokenCountdown.Proofs.Expansion.Safety
import SpokenCountdown.Proofs.Phrasing.LowestTerms

/-!
# Announcements of fractions

A fraction directive announces shares of the total, measured from the end or from
the start. A share next to the midpoint becomes the announcement of the midpoint,
and the half always is: its mark is half of the total rounded down, and the same
from the start is no more than a millisecond away. So what is left names a share
other than the half, at its own offset: `expand_shares`.
-/

namespace SpokenCountdown

open Phrasing (announcement NamesShare)

namespace Expansion

/-- At least the tolerance away from the midpoint. -/
def OffMidpoint (total offset : Nat) : Prop :=
  offset + tolerance ≤ total / 2 ∨ total / 2 + tolerance ≤ offset

/-- The announcement of a share other than the half, to go or gone. -/
inductive Share (parts total : Nat) (phrases : Phrases) : Announcement → Prop where
  | toGo {k : Nat} {text : String} (low : 1 ≤ k) (high : k ≤ parts - 1) (uneven : 2 * k ≠ parts)
      (hname : NamesShare k parts text) :
      Share parts total phrases (announcement (total * k / parts) (text ++ phrases.toGo))
  | gone {k : Nat} {text : String} (low : 1 ≤ k) (high : k ≤ parts - 1) (uneven : 2 * k ≠ parts)
      (hname : NamesShare k parts text) :
      Share parts total phrases (announcement (total - total * k / parts) (text ++ phrases.gone))

section
variable {k parts total : Nat} {numerator : Option Nat} {phrases : Phrases} {d : Directive}
  {a mark : Announcement}

-- ---------------------------------------------------------------------------
-- Marks
-- ---------------------------------------------------------------------------

theorem collapse_cases (total : Nat) (phrases : Phrases) (a : Announcement) :
    collapse total phrases a = halfWay total phrases ∨
      OffMidpoint total a.offset ∧ collapse total phrases a = a := by
  unfold collapse
  dsimp only
  split
  · exact .inl rfl
  · exact .inr ⟨by unfold OffMidpoint; omega, rfl⟩

theorem mark_half (positive : 0 < k) (total : Nat) : total * k / (2 * k) = total / 2 :=
  Nat.mul_div_mul_right total 2 positive

theorem not_offMidpoint_half (total : Nat) :
    ¬ OffMidpoint total (total / 2) ∧ ¬ OffMidpoint total (total - total / 2) := by
  simp only [OffMidpoint, tolerance]
  omega

theorem exists_spoken (low : 1 ≤ k) (high : k < parts) (bounded : parts ≤ 10)
    (uneven : 2 * k ≠ parts) (phrases : Phrases) : ∃ text, NamesShare k parts text ∧
      ∀ suffix, Words.spoken parts phrases k suffix = text ++ suffix := by
  cases hmessage : Phrasing.fractionMessage k parts with
  | none => exact absurd ((Phrasing.fractionMessage_eq_none_iff low high).mp hmessage) uneven
  | some text =>
    refine ⟨text, Phrasing.namesShare_of_fractionMessage low high bounded hmessage, fun suffix => ?_⟩
    simp only [Words.spoken, hmessage]

theorem share_of_mem_ends (low : 1 ≤ k) (high : k < parts) (bounded : parts ≤ 10)
    (hmark : mark ∈ Words.ends parts total phrases k) (hoff : OffMidpoint total mark.offset) :
    Share parts total phrases mark := by
  have hle : k ≤ parts - 1 := Nat.le_sub_one_of_lt high
  have uneven : 2 * k ≠ parts := by
    rintro rfl
    obtain ⟨htoGo, hgone⟩ := not_offMidpoint_half total
    simp only [Words.ends, mark_half low, List.mem_cons, List.not_mem_nil, or_false] at hmark
    rcases hmark with rfl | rfl
    · exact htoGo hoff
    · exact hgone hoff
  obtain ⟨text, hname, hspoken⟩ := exists_spoken low high bounded uneven phrases
  simp only [Words.ends, hspoken, List.mem_cons, List.not_mem_nil, or_false] at hmark
  rcases hmark with rfl | rfl
  · exact .toGo low hle uneven hname
  · exact .gone low hle uneven hname

theorem Share.offset_le (h : Share parts total phrases a) : a.offset ≤ total := by
  cases h with
  | toGo low high => exact Words.mark_le (by omega)
  | gone => exact Nat.sub_le ..

theorem mem_fractions (h : parts ≠ 2) (ha : a ∈ fractions d numerator parts total phrases) :
    ∃ k, 1 ≤ k ∧ k < parts ∧ ∃ mark ∈ Words.ends parts total phrases k,
      a = collapse total phrases mark := by
  unfold fractions at ha
  rw [if_neg h] at ha
  dsimp only at ha
  generalize (d.multiplier <|> numerator.filter (1 < ·)) = wanted at ha
  have hcount := wanted_le wanted (parts - 1)
  generalize (wanted.map (min · (parts - 1))).getD (parts - 1) = count at hcount ha
  obtain ⟨mark, hmark, rfl⟩ := List.mem_map.mp ha
  have within {most k : Nat} (hmost : most ≤ count) (hk : k ∈ (List.range most).map (· + 1)) :
      1 ≤ k ∧ k < parts := by
    obtain ⟨i, hi, rfl⟩ := List.mem_map.mp hk
    have := List.mem_range.mp hi
    omega
  split at hmark
  · obtain ⟨k, hk, hmark⟩ := List.mem_flatMap.mp hmark
    obtain ⟨low, high⟩ := within (Nat.min_le_left _ _) hk
    exact ⟨k, low, high, mark, hmark, rfl⟩
  · obtain ⟨k, hk, rfl⟩ := List.mem_map.mp hmark
    obtain ⟨low, high⟩ := within (Nat.le_refl _) hk
    exact ⟨k, low, high, _, List.mem_cons_self, rfl⟩
  · obtain ⟨k, hk, rfl⟩ := List.mem_map.mp hmark
    obtain ⟨low, high⟩ := within (Nat.le_refl _) hk
    exact ⟨k, low, high, _, List.mem_cons_of_mem _ List.mem_cons_self, rfl⟩

theorem expand_fraction (hform : d.form = .fraction numerator parts) (hpositive : 0 < total) :
    d.expand total phrases = fractions d numerator parts total phrases := by
  unfold Directive.expand
  rw [if_neg (Nat.ne_of_gt hpositive), hform]

theorem share_of_mem_fractions (bounded : parts ≤ 10) (h : parts ≠ 2)
    (ha : a ∈ fractions d numerator parts total phrases) :
    a = halfWay total phrases ∨ OffMidpoint total a.offset ∧ Share parts total phrases a := by
  obtain ⟨k, low, high, mark, hmark, rfl⟩ := mem_fractions h ha
  refine (collapse_cases total phrases mark).imp_right fun ⟨hoff, hkept⟩ => ?_
  rw [hkept]
  exact ⟨hoff, share_of_mem_ends low high bounded hmark hoff⟩

end

end Expansion

namespace Directive

open Expansion (halfWay OffMidpoint Share)

variable {d : Directive} {numerator : Option Nat} {parts total : Nat}

/-- A half is announced as the midpoint alone. Any other fraction announces the midpoint
and shares that keep their distance from it. None of these is the half, and nothing but
the midpoint stands where the half has its marks. -/
theorem expand_shares (hform : d.form = .fraction numerator parts) (low : 2 ≤ parts)
    (high : parts ≤ 10) (hpositive : 0 < total) (phrases : Phrases) :
    (parts = 2 → d.expand total phrases = [halfWay total phrases]) ∧
      (parts ≠ 2 → ∀ a ∈ d.expand total phrases, a = halfWay total phrases ∨
        OffMidpoint total a.offset ∧ Share parts total phrases a) ∧
      (∀ k, 2 * k = parts → ∀ a ∈ d.expand total phrases,
        a.offset = total * k / parts ∨ a.offset = total - total * k / parts →
          a = halfWay total phrases) ∧
      ∀ a ∈ d.expand total phrases, a.offset ≤ total := by
  rw [Expansion.expand_fraction hform hpositive]
  have hhalf : parts = 2 →
      Expansion.fractions d numerator parts total phrases = [halfWay total phrases] :=
    fun h => if_pos h
  have hshare : ∀ a ∈ Expansion.fractions d numerator parts total phrases,
      a = halfWay total phrases ∨ OffMidpoint total a.offset ∧ Share parts total phrases a := by
    intro a ha
    by_cases h : parts = 2
    · rw [hhalf h] at ha
      exact .inl (List.mem_singleton.mp ha)
    · exact Expansion.share_of_mem_fractions high h ha
  refine ⟨hhalf, fun _ => hshare, ?_, fun a ha => ?_⟩
  · rintro k rfl a ha hoffset
    refine (hshare a ha).resolve_right fun ⟨hoff, _⟩ => ?_
    obtain ⟨htoGo, hgone⟩ := Expansion.not_offMidpoint_half total
    rw [Expansion.mark_half (by omega)] at hoffset
    rcases hoffset with h | h
    · exact htoGo (h ▸ hoff)
    · exact hgone (h ▸ hoff)
  · rcases hshare a ha with rfl | ⟨-, h⟩
    · exact Nat.div_le_self total 2
    · exact h.offset_le

/-- Quarters from both ends. -/
def quarters : Directive := ⟨.single, .both, none, .fraction none 4, "1/4"⟩

/-- The total is odd, and its half is no whole number of milliseconds. -/
theorem expand_shares_odd :
    quarters.form = .fraction none 4 ∧ 2 ≤ 4 ∧ 4 ≤ 10 ∧ 0 < 180001 ∧
      (4 = 2 → quarters.expand 180001 {} = [halfWay 180001 {}]) ∧
      (4 ≠ 2 → ∀ a ∈ quarters.expand 180001 {}, a = halfWay 180001 {} ∨
        OffMidpoint 180001 a.offset ∧ Share 4 180001 {} a) ∧
      (∀ k, 2 * k = 4 → ∀ a ∈ quarters.expand 180001 {},
        a.offset = 180001 * k / 4 ∨ a.offset = 180001 - 180001 * k / 4 →
          a = halfWay 180001 {}) ∧
      ∀ a ∈ quarters.expand 180001 {}, a.offset ≤ 180001 :=
  ⟨rfl, by decide, by decide, by decide,
    expand_shares rfl (by decide) (by decide) (by decide) {}⟩

-- The half from the start would be at 90001.
example : (quarters.expand 180001 {}).map (·.offset) = [45000, 135001, 90000, 90000] := by
  decide

end Directive

end SpokenCountdown
