import SpokenCountdown.Proofs.Duration.Reading
import SpokenCountdown.Proofs.Text.Trimmed

/-!
# Durations typed as arguments

A typed duration that is a numeral is a number, and its size decides between seconds
and milliseconds; the same text in settings counts seconds. So the two come apart
from ten thousand on, up to a day. They also come apart at a numeral with a plus sign,
which is a number as well but no duration text: `signed_argument_differs`. Any other
text comes to the same either way: `argument_as_text_iff`.
-/

namespace SpokenCountdown

open Text (IsNumeral not_isNumeral_signed)
open Duration (limit Denotes)

namespace DurationInput

/-- Both are refused, or both come to the same milliseconds. -/
def Alike (a b : DurationInput) : Prop :=
  a.milliseconds.toOption = b.milliseconds.toOption

/-- What an argument is taken for, by its text without blanks around it. -/
inductive Typed (cs : List Char) : DurationInput → Prop where
  | bare {v : Nat} (h : IsNumeral v cs) (fits : v < Text.word64) : Typed cs (.number v)
  | signed {v : Nat} {digits : List Char} (hcs : cs = '+' :: digits) (h : IsNumeral v digits)
      (fits : v < Text.word64) : Typed cs (.number v)
  | other (hbare : ∀ v, IsNumeral v cs → Text.word64 ≤ v)
      (hsigned : ∀ v digits, cs = '+' :: digits → IsNumeral v digits → Text.word64 ≤ v) :
      Typed cs (.text (String.ofList cs))

section
variable {s : String} {v ms : Nat} {cs digits : List Char} {input : DurationInput}

theorem typed_ofArgument (s : String) : Typed (Text.trimChars s.toList) (ofArgument s) := by
  unfold ofArgument
  dsimp only
  generalize Text.trimChars s.toList = cs
  cases hread : Text.readSignedNumeral Text.word64 cs with
  | some n =>
    obtain ⟨h | ⟨digits, hcs, h⟩, fits⟩ := Text.readSignedNumeral_eq_some_iff.mp hread
    · exact .bare h fits
    · exact .signed hcs h fits
  | none =>
    have hnone (n : Nat) (h : IsNumeral n cs ∨ ∃ digits, cs = '+' :: digits ∧ IsNumeral n digits) :
        Text.word64 ≤ n := by
      by_contra hlt
      have hsome := Text.readSignedNumeral_eq_some_iff.mpr ⟨h, Nat.lt_of_not_le hlt⟩
      rw [hread] at hsome
      cases hsome
    exact .other (fun n h => hnone n (.inl h)) fun n digits hcs h => hnone n (.inr ⟨digits, hcs, h⟩)

theorem Alike.eq_ok {a b : DurationInput} (h : a.Alike b) (hb : b.milliseconds = .ok ms) :
    a.milliseconds = .ok ms := by
  unfold Alike at h
  rw [hb] at h
  cases ha : a.milliseconds with
  | error fault =>
    rw [ha] at h
    cases h
  | ok other =>
    rw [ha] at h
    exact congrArg _ (Option.some.inj h)

-- ---------------------------------------------------------------------------
-- A numeral
-- ---------------------------------------------------------------------------

theorem milliseconds_of_denotes (h : Denotes (Text.trimChars s.toList) ms) :
    (text s).milliseconds = limit ms := by
  rw [milliseconds_text, Duration.ofText_eq_ok_iff.mpr h]
  rfl

theorem toOption_limit (n : Nat) :
    (limit n).toOption = if n = 0 then none else some (min n Duration.longest) := by
  unfold limit
  split <;> rfl

theorem toOption_limit_eq_iff {a b : Nat} : (limit a).toOption = (limit b).toOption ↔
    min a Duration.longest = min b Duration.longest := by
  have hlongest : 0 < Duration.longest := by decide
  rw [toOption_limit, toOption_limit]
  by_cases ha : a = 0 <;> by_cases hb : b = 0 <;> simp [ha, hb] <;> omega

theorem alike_bare (h : IsNumeral v (Text.trimChars s.toList)) (fits : v < Text.word64) :
    (number v).Alike (text s) ↔ v < 10000 ∨ 86400000 ≤ v := by
  have hlongest : Duration.longest = 86400000 := rfl
  rw [Alike, milliseconds_number, milliseconds_of_denotes (.seconds h fits),
    toOption_limit_eq_iff, Duration.ofNumber, Duration.secondsThreshold]
  split <;> omega

-- ---------------------------------------------------------------------------
-- A numeral with a sign
-- ---------------------------------------------------------------------------

theorem milliseconds_signed (hsigned : Text.trimChars s.toList = '+' :: digits) :
    (text s).milliseconds.toOption = none := by
  cases hread : (text s).milliseconds with
  | error fault => rfl
  | ok ms =>
    obtain ⟨span, hspan, -⟩ := milliseconds_text_eq_ok_iff.mp hread
    rw [hsigned] at hspan
    exact absurd hspan.head_isDigit (by decide)

theorem alike_signed (hsigned : Text.trimChars s.toList = '+' :: digits) :
    (number v).Alike (text s) ↔ v = 0 := by
  rw [Alike, milliseconds_signed hsigned, milliseconds_number_eq]
  by_cases hv : v = 0
  · simp [hv, Except.toOption]
  · simp [hv, Except.toOption]

-- ---------------------------------------------------------------------------
-- Anything else
-- ---------------------------------------------------------------------------

theorem alike_trimmed (s : String) :
    (text (String.ofList (Text.trimChars s.toList))).Alike (text s) := by
  rw [Alike, milliseconds_text, milliseconds_text, Duration.ofText, Duration.ofText,
    String.toList_ofList, Text.trimChars_trimChars]

end

/-- Where a typed text and the same text in settings come apart. -/
theorem argument_as_text_iff (s : String) : (ofArgument s).Alike (text s) ↔
    (∀ v, IsNumeral v (Text.trimChars s.toList) → v < 10000 ∨ 86400000 ≤ v) ∧
      ∀ v digits, Text.trimChars s.toList = '+' :: digits → IsNumeral v digits →
        v = 0 ∨ Text.word64 ≤ v := by
  have htyped := typed_ofArgument s
  generalize ofArgument s = input at htyped ⊢
  cases htyped with
  | @bare v h fits =>
    rw [alike_bare h fits]
    constructor
    · intro hsize
      refine ⟨fun other hother => h.unique hother ▸ hsize, fun other digits hcs => ?_⟩
      exact absurd (hcs ▸ h) not_isNumeral_signed
    · rintro ⟨hbare, -⟩
      exact hbare v h
  | @signed v digits hcs h fits =>
    rw [alike_signed hcs]
    constructor
    · rintro rfl
      refine ⟨fun other hother => absurd (hcs ▸ hother) not_isNumeral_signed, ?_⟩
      rintro other digits' hcs' hother
      obtain rfl := (List.cons.inj (hcs.symm.trans hcs')).2
      exact .inl (hother.unique h)
    · rintro ⟨-, hsigned⟩
      exact (hsigned v digits hcs h).resolve_right (Nat.not_le.mpr fits)
  | other hbare hsigned =>
    refine iff_of_true (alike_trimmed s) ⟨fun v h => .inr ?_, fun v digits hcs h => .inr ?_⟩
    · exact Nat.le_trans (by decide) (hbare v h)
    · exact hsigned v digits hcs h

/-- A plus sign is enough for a text that is no run of digits to be taken for a number. -/
theorem signed_argument_differs :
    ¬ ∀ s : String, (¬ ∃ v, IsNumeral v (Text.trimChars s.toList) ∧ 10000 ≤ v) →
      (ofArgument s).Alike (text s) := by
  intro h
  have htrimmed : Text.trimChars "+90".toList = '+' :: ['9', '0'] := by decide
  have hnumber : ofArgument "+90" = number 90 := by decide
  have halike : (ofArgument "+90").Alike (text "+90") := by
    apply h
    rintro ⟨v, hv, -⟩
    exact not_isNumeral_signed (htrimmed ▸ hv)
  rw [hnumber, alike_signed htrimmed] at halike
  cases halike

end DurationInput

end SpokenCountdown
