import SpokenCountdown.Directive.Parser
import SpokenCountdown.Proofs.Expansion.Shares

/-!
# Mirrored shares

Without an anchor the marks of a share come in pairs, one from either end and equally far
from the middle of the countdown. Both become the announcement of the midpoint if they are
less than five seconds from the middle, but for one case: the offset of the midpoint is
rounded down, so for an odd countdown a mark from the start that is 4999.5 milliseconds
away counts as five seconds from it. The mark from the end does not: `mirrored_alike_iff`.
-/

namespace SpokenCountdown

open Phrasing (announcement)

namespace Expansion

/-- Twice the distance from the middle, which may lie between two milliseconds. -/
def distance (total offset : Nat) : Nat :=
  max (2 * offset) total - min (2 * offset) total

section
variable {k parts total offset : Nat} {phrases : Phrases} {d : Directive} {a : Announcement}

-- ---------------------------------------------------------------------------
-- The middle
-- ---------------------------------------------------------------------------

theorem distance_mirrored (h : offset ≤ total) :
    distance total (total - offset) = distance total offset := by
  unfold distance
  omega

theorem collapse_eq_halfWay_iff :
    collapse total phrases a = halfWay total phrases ↔ ¬ OffMidpoint total a.offset := by
  unfold collapse
  dsimp only
  split
  · exact iff_of_true rfl (by unfold OffMidpoint; omega)
  · constructor
    · rintro rfl
      exact (not_offMidpoint_half total).1
    · intro h
      unfold OffMidpoint at h
      omega

theorem toGo_eq_halfWay_iff (h : 2 * offset ≤ total) (phrases : Phrases) (message : String) :
    collapse total phrases (announcement offset message) = halfWay total phrases ↔
      distance total offset < 10000 := by
  rw [collapse_eq_halfWay_iff]
  simp only [announcement, OffMidpoint, tolerance, distance]
  omega

/-- From the start it may be half a millisecond further away. -/
theorem gone_eq_halfWay_iff (h : 2 * offset ≤ total) (phrases : Phrases) (message : String) :
    collapse total phrases (announcement (total - offset) message) = halfWay total phrases ↔
      distance total offset < 9999 := by
  rw [collapse_eq_halfWay_iff]
  simp only [announcement, OffMidpoint, tolerance, distance]
  omega

theorem double_mark_le (positive : 0 < k) (h : 2 * k ≤ parts) (total : Nat) :
    2 * (total * k / parts) ≤ total := by
  have hle : total * k / parts ≤ total / 2 := by
    rw [← mark_half positive total]
    exact Nat.div_le_div_left h (by omega)
  omega

-- ---------------------------------------------------------------------------
-- Pairs
-- ---------------------------------------------------------------------------

def markPair (parts total : Nat) (phrases : Phrases) (k : Nat) : Announcement × Announcement :=
  let mark := total * k / parts
  (collapse total phrases (announcement mark (Words.spoken parts phrases k phrases.toGo)),
    collapse total phrases
      (announcement (total - mark) (Words.spoken parts phrases k phrases.gone)))

theorem fractions_mirrored (uneven : parts ≠ 2) (unanchored : d.anchor = .both)
    (numerator : Option Nat) (total : Nat) (phrases : Phrases) :
    ∃ announced ≤ parts / 2, fractions d numerator parts total phrases =
      ((List.range announced).map fun i => markPair parts total phrases (i + 1)).flatMap
        fun pair => [pair.1, pair.2] := by
  unfold fractions
  rw [if_neg uneven, unanchored]
  dsimp only
  generalize
    ((d.multiplier <|> numerator.filter (1 < ·)).map (min · (parts - 1))).getD (parts - 1) = count
  refine ⟨min count (parts / 2), Nat.min_le_right _ _, ?_⟩
  rw [List.map_flatMap, List.flatMap_map, List.flatMap_map]
  rfl

end

end Expansion

namespace Directive

open Expansion (halfWay distance markPair)

variable {d : Directive} {numerator : Option Nat} {parts total : Nat}

/-- The marks of a share are equally far from the middle of the countdown. The one from the
end becomes the announcement of the midpoint exactly if it is less than five seconds away.
So does the one from the start, unless they are 4999.5 milliseconds away: then the two are
not treated alike. -/
theorem mirrored_alike_iff (hform : d.form = .fraction numerator parts)
    (unanchored : d.anchor = .both) (low : 2 < parts) (hpositive : 0 < total)
    (phrases : Phrases) :
    ∃ pairs : List (Announcement × Announcement),
      d.expand total phrases = pairs.flatMap (fun pair => [pair.1, pair.2]) ∧
      ∀ i toGo gone, pairs[i]? = some (toGo, gone) →
        let mark := total * (i + 1) / parts
        (toGo = halfWay total phrases ∨
            toGo = announcement mark (Words.spoken parts phrases (i + 1) phrases.toGo)) ∧
          (gone = halfWay total phrases ∨
            gone = announcement (total - mark)
              (Words.spoken parts phrases (i + 1) phrases.gone)) ∧
          distance total (total - mark) = distance total mark ∧
          (toGo = halfWay total phrases ↔ distance total mark < 10000) ∧
          (gone = halfWay total phrases ↔ distance total mark < 9999) ∧
          ((toGo = halfWay total phrases ↔ gone = halfWay total phrases) ↔
            distance total mark ≠ 9999) := by
  rw [Expansion.expand_fraction hform hpositive]
  obtain ⟨announced, hmost, hpairs⟩ :=
    Expansion.fractions_mirrored (Nat.ne_of_gt low) unanchored numerator total phrases
  refine ⟨_, hpairs, fun i toGo gone hpair => ?_⟩
  obtain ⟨hlength, hget⟩ := List.getElem?_eq_some_iff.mp hpair
  have hi : i < announced := by simpa using hlength
  have hpair : markPair parts total phrases (i + 1) = (toGo, gone) := by simpa using hget
  obtain ⟨rfl, rfl⟩ := Prod.mk.inj hpair
  have hmark : 2 * (total * (i + 1) / parts) ≤ total :=
    Expansion.double_mark_le i.succ_pos (by omega) total
  have htoGo := Expansion.toGo_eq_halfWay_iff hmark phrases
    (Words.spoken parts phrases (i + 1) phrases.toGo)
  have hgone := Expansion.gone_eq_halfWay_iff hmark phrases
    (Words.spoken parts phrases (i + 1) phrases.gone)
  refine ⟨?_, ?_, Expansion.distance_mirrored (by omega), htoGo, hgone, ?_⟩
  · exact (Expansion.collapse_cases ..).imp_right And.right
  · exact (Expansion.collapse_cases ..).imp_right And.right
  · simp only [htoGo, hgone]
    omega

def thirds : Directive := ⟨.single, .both, none, .fraction none 3, "1/3"⟩

/-- A countdown just long enough for the marks of a third to be 4999.5 milliseconds away. -/
theorem mirrored_alike_iff_thirds :
    thirds.form = .fraction none 3 ∧ thirds.anchor = .both ∧ 2 < 3 ∧ 0 < 29997 ∧
      ∃ pairs : List (Announcement × Announcement),
        thirds.expand 29997 {} = pairs.flatMap (fun pair => [pair.1, pair.2]) ∧
        ∀ i toGo gone, pairs[i]? = some (toGo, gone) →
          let mark := 29997 * (i + 1) / 3
          (toGo = halfWay 29997 {} ∨
              toGo = announcement mark (Words.spoken 3 {} (i + 1) " to go")) ∧
            (gone = halfWay 29997 {} ∨
              gone = announcement (29997 - mark) (Words.spoken 3 {} (i + 1) " gone")) ∧
            distance 29997 (29997 - mark) = distance 29997 mark ∧
            (toGo = halfWay 29997 {} ↔ distance 29997 mark < 10000) ∧
            (gone = halfWay 29997 {} ↔ distance 29997 mark < 9999) ∧
            ((toGo = halfWay 29997 {} ↔ gone = halfWay 29997 {}) ↔ distance 29997 mark ≠ 9999) :=
  ⟨rfl, rfl, by decide, by decide, mirrored_alike_iff rfl rfl (by decide) (by decide) {}⟩

/-- The third to go becomes the announcement of the midpoint and the third gone does not,
although both are equally far from the middle. -/
theorem thirds_not_alike :
    (parse? "1/3" = some thirds ∧
      thirds.expand 29997 {} = [halfWay 29997 {}, announcement 19998 "1 third gone"] ∧
      announcement 19998 "1 third gone" ≠ halfWay 29997 {} ∧
      distance 29997 (29997 * 1 / 3) = distance 29997 (29997 - 29997 * 1 / 3)) ∧
    ¬ ∀ (d : Directive) (numerator : Option Nat) (parts total : Nat) (phrases : Phrases),
      d.form = .fraction numerator parts → d.anchor = .both → 2 < parts → 1 ≤ total →
      total ≤ 2 ^ 60 → ∀ i toGo gone, (d.expand total phrases)[2 * i]? = some toGo →
        (d.expand total phrases)[2 * i + 1]? = some gone →
          (toGo = halfWay total phrases ↔ gone = halfWay total phrases) := by
  have hexpand : thirds.expand 29997 {} =
      [halfWay 29997 {}, announcement 19998 "1 third gone"] := by decide +kernel
  have hkept : announcement 19998 "1 third gone" ≠ halfWay 29997 {} := by decide +kernel
  refine ⟨⟨by decide +kernel, hexpand, hkept, by decide⟩, fun alike => hkept ?_⟩
  have hboth := alike thirds none 3 29997 {} rfl rfl (by decide) (by decide) (by decide) 0
    (halfWay 29997 {}) (announcement 19998 "1 third gone") (by rw [hexpand]; rfl)
    (by rw [hexpand]; rfl)
  exact hboth.mp rfl

end Directive

end SpokenCountdown
