import SpokenCountdown.Proofs.Directive.Canonical
import SpokenCountdown.Proofs.Expansion.Mirrored

/-!
# A numerator as the count

How many marks of a fraction are announced is written as a count, or as a numerator where
there is no count. From two on it makes no difference which of the two it is. A numerator of
one is passed over: it announces all the marks, as if there were none: `numerator_counts`.
-/

namespace SpokenCountdown

open Directive (unitFraction)
open Phrasing (announcement)

def Anchor.name : Anchor → List Char
  | .both => []
  | .first => "first".toList
  | .last => "last".toList

/-- What stands behind a count. Without an anchor a single hyphen would make it a numerator. -/
def Anchor.behindCount : Anchor → List Char
  | .both => ['-', '-']
  | .first => "first".toList
  | .last => "last".toList

namespace Expansion

/-- The announcements of the marks `1 .. count`, from the anchor. Without one they come in
pairs, and none beyond the middle. -/
def marks (anchor : Anchor) (count parts total : Nat) (phrases : Phrases) : List Announcement :=
  let pair := markPair parts total phrases
  match anchor with
  | .last => (List.range' 1 count).map fun k => (pair k).1
  | .first => (List.range' 1 count).map fun k => (pair k).2
  | .both =>
    (List.range' 1 (min count (parts / 2))).flatMap fun k => [(pair k).1, (pair k).2]

def wanted (d : Directive) (numerator : Option Nat) : Option Nat :=
  d.multiplier <|> numerator.filter (1 < ·)

section
variable {a b d : Directive} {n m numerator : Option Nat} {parts total : Nat} {phrases : Phrases}

-- ---------------------------------------------------------------------------
-- Marks
-- ---------------------------------------------------------------------------

theorem fractions_eq_marks (uneven : parts ≠ 2) :
    fractions d numerator parts total phrases =
      marks d.anchor (((wanted d numerator).map (min · (parts - 1))).getD (parts - 1)) parts total
        phrases := by
  have hks (count : Nat) : (List.range count).map (· + 1) = List.range' 1 count := by
    simp only [List.range'_eq_map_range, Nat.add_comm 1]
  unfold fractions marks wanted
  rw [if_neg uneven]
  dsimp only
  generalize
    ((d.multiplier <|> numerator.filter (1 < ·)).map (min · (parts - 1))).getD (parts - 1) = count
  cases d.anchor with
  | both =>
    dsimp only
    rw [hks, List.map_flatMap]
    rfl
  | first | last =>
    dsimp only
    rw [hks, List.map_map]
    rfl

theorem expand_eq_marks (hform : d.form = .fraction numerator parts) (uneven : parts ≠ 2) :
    d.expand total phrases =
      if total = 0 then []
      else marks d.anchor (((wanted d numerator).map (min · (parts - 1))).getD (parts - 1)) parts
        total phrases := by
  unfold Directive.expand
  rw [hform]
  dsimp only
  rw [fractions_eq_marks uneven]

theorem expand_counted {count : Nat} (hform : d.form = .fraction none parts)
    (hcount : d.multiplier = some count) (uneven : parts ≠ 2) : d.expand total phrases =
      if total = 0 then [] else marks d.anchor (min count (parts - 1)) parts total phrases := by
  rw [expand_eq_marks hform uneven, wanted, hcount]
  rfl

theorem expand_uncounted (hform : d.form = .fraction none parts) (hcount : d.multiplier = none)
    (uneven : parts ≠ 2) : d.expand total phrases =
      if total = 0 then [] else marks d.anchor (parts - 1) parts total phrases := by
  rw [expand_eq_marks hform uneven, wanted, hcount]
  rfl

/-- Of the same parts, directives with one anchor that ask for as many marks are expanded
alike, on words as well, and a fault is a fault of both. -/
theorem expand_alike (ha : a.form = .fraction n parts) (hb : b.form = .fraction m parts)
    (hanchor : a.anchor = b.anchor) (hwanted : wanted a n = wanted b m) :
    a.expand total phrases = b.expand total phrases ∧
      ∀ rounds, Words.expand rounds a total phrases = Words.expand rounds b total phrases := by
  unfold wanted at hwanted
  unfold Directive.expand Words.expand
  rw [ha, hb]
  dsimp only
  unfold fractions Words.fractions
  rw [hanchor, hwanted]
  exact ⟨rfl, fun _ => rfl⟩

end

end Expansion

namespace Directive

open Expansion (marks wanted expand_alike expand_counted expand_uncounted)

def numeratorToken (anchor : Anchor) (n parts : Nat) : String :=
  String.ofList (anchor.name ++ (Text.numeral n ++ (['-'] ++ unitFraction parts)))

def countToken (anchor : Anchor) (n parts : Nat) : String :=
  String.ofList (Text.numeral n ++ (anchor.behindCount ++ unitFraction parts))

def plainToken (anchor : Anchor) (parts : Nat) : String :=
  String.ofList (anchor.name ++ unitFraction parts)

section
variable {anchor : Anchor} {form : Form} {multiplier : Option Nat} {cs : List Char}
  {n parts total : Nat}

-- ---------------------------------------------------------------------------
-- Tokens
-- ---------------------------------------------------------------------------

theorem anchorName_name (h : anchor ≠ .both) : AnchorName anchor anchor.name := by
  cases anchor with
  | both => exact absurd rfl h
  | first => exact .first
  | last => exact .last

theorem Reading.chosen (h : Reading multiplier anchor form cs) (anchored : anchor ≠ .both) :
    Chosen multiplier anchor form cs :=
  ⟨h, fun hbody => absurd hbody (h.not_body anchored)⟩

theorem chosen_anchored (anchor : Anchor) (h : Body form cs) :
    Chosen none anchor form (anchor.name ++ cs) := by
  by_cases hanchor : anchor = .both
  · subst hanchor
    exact ⟨.plain h, fun _ => ⟨rfl, rfl⟩⟩
  · exact (@Reading.anchored _ _ _ [] _ (anchorName_name hanchor) .nothing h).chosen hanchor

theorem plain_body (low : 2 ≤ parts) (high : parts ≤ 10) :
    Body (.fraction none parts) (unitFraction parts) :=
  @Body.fraction parts [] low high .nothing

theorem chosen_counted (positive : 1 ≤ n) (digit : n ≤ 9) (low : 2 ≤ parts) (high : parts ≤ 10)
    (anchor : Anchor) : Chosen (some n) anchor (.fraction none parts)
      (Text.numeral n ++ (anchor.behindCount ++ unitFraction parts)) := by
  have hcount : Digits n (Text.numeral n) := numeral_digits_of_le digit
  have hbody := plain_body low high
  cases anchor with
  | both =>
    have hwell : WellFormed ⟨.single, .both, some n, .fraction none parts, ""⟩ := by
      refine ⟨⟨nofun, low, high⟩, ?_⟩
      rintro m ⟨⟩
      exact ⟨positive, hcount.bounded⟩
    have hchosen := chosen_written hwell
    rw [writtenReading_counted rfl rfl] at hchosen
    exact hchosen
  | first =>
    exact (@Reading.countedAnchored _ _ _ _ [] _ [] _ hcount positive .nothing .first .nothing
      hbody).chosen nofun
  | last =>
    exact (@Reading.countedAnchored _ _ _ _ [] _ [] _ hcount positive .nothing .last .nothing
      hbody).chosen nofun

-- No token has a letter in upper case.

theorem lowercase_name (anchor : Anchor) : Text.lowercase anchor.name = anchor.name := by
  cases anchor <;> rfl

theorem lowercase_behindCount (anchor : Anchor) :
    Text.lowercase anchor.behindCount = anchor.behindCount := by
  cases anchor <;> rfl

theorem parse?_chosen (hlower : Text.lowercase cs = cs) (h : Chosen multiplier anchor form cs) :
    parse? (String.ofList cs) = some ⟨.single, anchor, multiplier, form, String.ofList cs⟩ := by
  refine parse?_eq_some_iff.mpr ⟨rfl, [], cs, ?_, .single, h⟩
  rw [String.toList_ofList, hlower]
  rfl

theorem parse?_numeratorToken (positive : 1 ≤ n) (digit : n ≤ 9) (low : 2 ≤ parts)
    (high : parts ≤ 10) (anchor : Anchor) : parse? (numeratorToken anchor n parts) =
      some ⟨.single, anchor, none, .fraction (some n) parts, numeratorToken anchor n parts⟩ := by
  refine parse?_chosen ?_ (chosen_anchored anchor
    (.fractions positive digit low high (.separator (.inl rfl))))
  simp only [Text.lowercase_append, lowercase_name, Text.lowercase_numeral, lowercase_unitFraction]
  rfl

theorem parse?_countToken (positive : 1 ≤ n) (digit : n ≤ 9) (low : 2 ≤ parts)
    (high : parts ≤ 10) (anchor : Anchor) : parse? (countToken anchor n parts) =
      some ⟨.single, anchor, some n, .fraction none parts, countToken anchor n parts⟩ := by
  refine parse?_chosen ?_ (chosen_counted positive digit low high anchor)
  simp only [Text.lowercase_append, lowercase_behindCount, Text.lowercase_numeral,
    lowercase_unitFraction]

theorem parse?_plainToken (low : 2 ≤ parts) (high : parts ≤ 10) (anchor : Anchor) :
    parse? (plainToken anchor parts) =
      some ⟨.single, anchor, none, .fraction none parts, plainToken anchor parts⟩ := by
  refine parse?_chosen ?_ (chosen_anchored anchor (plain_body low high))
  simp only [Text.lowercase_append, lowercase_name, lowercase_unitFraction]

-- ---------------------------------------------------------------------------
-- The announcements
-- ---------------------------------------------------------------------------

/-- From two on a numerator is expanded like the same count, and one like none at all. The
count announces as many marks as it says, or all that there are. -/
theorem numerator_counts (anchor : Anchor) (positive : 1 ≤ n) (digit : n ≤ 9) (low : 3 ≤ parts)
    (high : parts ≤ 10) :
    ∃ numbered counted plain, parse? (numeratorToken anchor n parts) = some numbered ∧
      parse? (countToken anchor n parts) = some counted ∧
      parse? (plainToken anchor parts) = some plain ∧
      ∀ total phrases,
        (2 ≤ n → numbered.expand total phrases = counted.expand total phrases ∧
          ∀ rounds, Words.expand rounds numbered total phrases =
            Words.expand rounds counted total phrases) ∧
        (n = 1 → numbered.expand total phrases = plain.expand total phrases ∧
          ∀ rounds, Words.expand rounds numbered total phrases =
            Words.expand rounds plain total phrases) ∧
        (counted.expand total phrases =
          if total = 0 then [] else marks anchor (min n (parts - 1)) parts total phrases) ∧
        plain.expand total phrases =
          if total = 0 then [] else marks anchor (parts - 1) parts total phrases := by
  have hlow : 2 ≤ parts := Nat.le_of_succ_le low
  have huneven : parts ≠ 2 := by omega
  refine ⟨⟨.single, anchor, none, .fraction (some n) parts, _⟩,
    ⟨.single, anchor, some n, .fraction none parts, _⟩,
    ⟨.single, anchor, none, .fraction none parts, _⟩,
    parse?_numeratorToken positive digit hlow high anchor,
    parse?_countToken positive digit hlow high anchor, parse?_plainToken hlow high anchor,
    fun total phrases => ⟨fun many => ?_, fun one => ?_, ?_, ?_⟩⟩
  · refine expand_alike rfl rfl rfl ?_
    have hmany : (some n).filter (1 < ·) = some n := Option.filter_some_pos (decide_eq_true many)
    rw [wanted, wanted, hmany]
    rfl
  · refine expand_alike rfl rfl rfl ?_
    rw [one]
    rfl
  · exact expand_counted rfl rfl huneven
  · exact expand_uncounted rfl rfl huneven

end

theorem numerator_counts_fifths :
    (numeratorToken .last 2 5 = "last2-1/5" ∧ countToken .last 2 5 = "2last1/5" ∧
      plainToken .last 5 = "last1/5") ∧
    1 ≤ 2 ∧ 2 ≤ 9 ∧ 3 ≤ 5 ∧ 5 ≤ 10 ∧
    ∃ numbered counted plain, parse? (numeratorToken .last 2 5) = some numbered ∧
      parse? (countToken .last 2 5) = some counted ∧
      parse? (plainToken .last 5) = some plain ∧
      ∀ total phrases,
        (2 ≤ 2 → numbered.expand total phrases = counted.expand total phrases ∧
          ∀ rounds, Words.expand rounds numbered total phrases =
            Words.expand rounds counted total phrases) ∧
        (2 = 1 → numbered.expand total phrases = plain.expand total phrases ∧
          ∀ rounds, Words.expand rounds numbered total phrases =
            Words.expand rounds plain total phrases) ∧
        (counted.expand total phrases =
          if total = 0 then [] else marks .last (min 2 (5 - 1)) 5 total phrases) ∧
        plain.expand total phrases =
          if total = 0 then [] else marks .last (5 - 1) 5 total phrases :=
  ⟨by decide, by decide, by decide, by decide, by decide,
    numerator_counts .last (by decide) (by decide) (by decide) (by decide)⟩

/-- A numerator of one announces both thirds, where a count of one announces the first. And
without an anchor no numerator reaches beyond the middle, so the fourth sixth is not announced
although five are asked for. -/
theorem one_not_counted :
    ((parse? "last1-1/3").map (·.expand 180000 {}) =
        some [announcement 60000 "1 third to go", announcement 120000 "2 thirds to go"] ∧
      (parse? "1last1/3").map (·.expand 180000 {}) =
        some [announcement 60000 "1 third to go"] ∧
      (parse? "5-1/6").map (fun d => (d.expand 600000 {}).map (·.message)) =
        some ["1 sixth to go", "1 sixth gone", "1 third to go", "1 third gone", "Half way",
          "Half way"]) ∧
    ¬ ∀ (anchor : Anchor) (n parts : Nat), 1 ≤ n → n ≤ 9 → 3 ≤ parts → parts ≤ 10 →
      ∀ total phrases, (parse? (numeratorToken anchor n parts)).map (·.expand total phrases) =
        (parse? (countToken anchor n parts)).map (·.expand total phrases) := by
  have hnumbered : (parse? "last1-1/3").map (·.expand 180000 {}) =
      some [announcement 60000 "1 third to go", announcement 120000 "2 thirds to go"] := by
    decide +kernel
  have hcounted : (parse? "1last1/3").map (·.expand 180000 {}) =
      some [announcement 60000 "1 third to go"] := by
    decide +kernel
  refine ⟨⟨hnumbered, hcounted, by decide +kernel⟩, fun alike => ?_⟩
  have hone := alike .last 1 3 (by decide) (by decide) (by decide) (by decide) 180000 {}
  have htokens : numeratorToken .last 1 3 = "last1-1/3" ∧ countToken .last 1 3 = "1last1/3" := by
    decide
  rw [htokens.1, htokens.2, hnumbered, hcounted] at hone
  exact absurd (congrArg List.length (Option.some.inj hone)) (by decide)

end Directive

end SpokenCountdown
