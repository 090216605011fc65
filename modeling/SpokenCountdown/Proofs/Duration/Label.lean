import SpokenCountdown.Proofs.Duration.Argument

/-!
# Clock labels are durations

A label shows whole seconds, without its leading fields where they are zero. Typed
back, in settings or as an argument, it comes to the seconds that it showed:
`clockLabel_typed_back`.
-/

namespace SpokenCountdown

open Text (IsNumeral)

namespace Text

variable {c : Char}

theorem not_isBlank_of_isDigit (h : c.isDigit = true) : isBlank c = false := by
  obtain ⟨low, high⟩ := Char.isDigit_iff_toNat.mp h
  have hlow : 48 ≤ c.toNat := low
  have hhigh : c.toNat ≤ 57 := high
  rw [Bool.eq_false_iff]
  intro hblank
  simp only [isBlank, Bool.or_eq_true, Bool.and_eq_true, decide_eq_true_eq, beq_iff_eq] at hblank
  omega

theorem IsNumeral.solid (h : IsNumeral n cs) : ∀ c ∈ cs, isBlank c = false :=
  fun c hc => not_isBlank_of_isDigit (h.digits c hc)

end Text

namespace Duration

section
variable {n v ms : Nat} {cs : List Char}

theorem isField_numeral (h : n < 100) : IsField n (Text.numeral n) where
  numeral := Text.isNumeral_numeral
  short := by
    have hshort : ∀ n < 100, (Text.numeral n).length ≤ 2 := by decide
    exact hshort n h

theorem isField_twoDigits (h : n < 100) : IsField n (Text.twoDigits n) where
  numeral := Text.isNumeral_twoDigits
  short := by
    have hshort : ∀ n < 100, (Text.twoDigits n).length ≤ 2 := by decide
    exact hshort n h

theorem Denotes.solid (h : Denotes cs ms) : ∀ c ∈ cs, Text.isBlank c = false := by
  have hcolon : Text.isBlank ':' = false := by decide
  cases h with
  | seconds h => exact h.solid
  | clock h =>
    cases h with
    | minutes hm hs =>
      exact List.forall_mem_append.mpr ⟨hm.numeral.solid,
        List.forall_mem_cons.mpr ⟨hcolon, hs.numeral.solid⟩⟩
    | hours hh hm hs =>
      exact List.forall_mem_append.mpr ⟨hh.numeral.solid, List.forall_mem_cons.mpr ⟨hcolon,
        List.forall_mem_append.mpr ⟨hm.numeral.solid,
          List.forall_mem_cons.mpr ⟨hcolon, hs.numeral.solid⟩⟩⟩⟩

-- ---------------------------------------------------------------------------
-- Labels
-- ---------------------------------------------------------------------------

theorem denotes_clockLabel (h : ms < 360000000) :
    Denotes (clockLabel ms).toList (ms - ms % 1000) := by
  have hminutes : ms % 3600000 / 60000 ≤ 59 := by omega
  have hseconds : ms % 60000 / 1000 ≤ 59 := by omega
  have hfield {n : Nat} (hn : n ≤ 59) : IsField n (Text.twoDigits n) :=
    isField_twoDigits (Nat.lt_of_le_of_lt hn (by decide))
  unfold clockLabel
  rw [String.toList_ofList]
  split
  · have hhours : IsField (ms / 3600000) (Text.numeral (ms / 3600000)) :=
      isField_numeral (by omega)
    have hshown : ms - ms % 1000 =
        ofClock (ms / 3600000) (ms % 3600000 / 60000) (ms % 60000 / 1000) := by
      unfold ofClock
      omega
    rw [hshown, List.append_assoc, List.cons_append]
    exact .clock (.hours hhours (hfield hminutes) (hfield hseconds)) hminutes hseconds
  · split
    · have hshown : ms - ms % 1000 =
          ofClock 0 (ms % 3600000 / 60000) (ms % 60000 / 1000) := by
        unfold ofClock
        omega
      rw [hshown]
      exact .clock (.minutes (isField_numeral (by omega)) (hfield hseconds)) hminutes hseconds
    · have hshown : ms - ms % 1000 = ms % 60000 / 1000 * 1000 := by omega
      rw [hshown]
      exact .seconds Text.isNumeral_numeral (Nat.lt_of_le_of_lt hseconds (by decide))

theorem trimChars_clockLabel (h : ms < 360000000) :
    Text.trimChars (clockLabel ms).toList = (clockLabel ms).toList :=
  Text.trimChars_of_solid (denotes_clockLabel h).solid

theorem lt_sixty_of_clockLabel (h : IsNumeral v (clockLabel ms).toList) : v < 60 := by
  have hcolon : ':' ∉ (clockLabel ms).toList := h.not_mem (by decide)
  unfold clockLabel at h hcolon
  rw [String.toList_ofList] at h hcolon
  split at h
  · simp_all
  · split at h
    · simp_all
    · rw [h.unique Text.isNumeral_numeral]
      omega

end

end Duration

namespace DurationInput

open Duration (clockLabel)

section
variable {ms : Nat}

theorem clockLabel_milliseconds (hlow : 1000 ≤ ms) (hhigh : ms ≤ 86400000) :
    (text (clockLabel ms)).milliseconds = .ok (ms - ms % 1000) := by
  refine milliseconds_text_eq_ok_iff.mpr ⟨ms - ms % 1000, ?_, by omega, ?_⟩
  · rw [Duration.trimChars_clockLabel (by omega)]
    exact Duration.denotes_clockLabel (by omega)
  · exact (Nat.min_eq_left (Nat.le_trans (Nat.sub_le ..) hhigh)).symm

theorem ofArgument_clockLabel_alike (h : ms < 360000000) :
    (ofArgument (clockLabel ms)).Alike (text (clockLabel ms)) := by
  have htrimmed := Duration.trimChars_clockLabel h
  have htyped := typed_ofArgument (clockLabel ms)
  generalize ofArgument (clockLabel ms) = input at htyped ⊢
  cases htyped with
  | bare hv fits =>
    refine (alike_bare hv fits).mpr (.inl ?_)
    rw [htrimmed] at hv
    exact Nat.lt_trans (Duration.lt_sixty_of_clockLabel hv) (by decide)
  | signed hsigned =>
    have hdenotes := Duration.denotes_clockLabel h
    rw [← htrimmed, hsigned] at hdenotes
    exact absurd hdenotes.head_isDigit (by decide)
  | other => exact alike_trimmed (clockLabel ms)

/-- What is shown can be typed back, in settings or as an argument; what is lost are the
milliseconds that are not shown. -/
theorem clockLabel_typed_back (hlow : 1000 ≤ ms) (hhigh : ms ≤ 86400000) :
    (text (clockLabel ms)).milliseconds = .ok (ms - ms % 1000) ∧
      (ofArgument (clockLabel ms)).milliseconds = .ok (ms - ms % 1000) := by
  have hread := clockLabel_milliseconds hlow hhigh
  have halike := ofArgument_clockLabel_alike (Nat.lt_of_le_of_lt hhigh (by decide))
  exact ⟨hread, halike.eq_ok hread⟩

theorem clockLabel_typed_back_hour :
    1000 ≤ 3665999 ∧ 3665999 ≤ 86400000 ∧ clockLabel 3665999 = "1:01:05" ∧
      (text "1:01:05").milliseconds = .ok 3665000 ∧
      (ofArgument "1:01:05").milliseconds = .ok 3665000 := by
  have hlabel : clockLabel 3665999 = "1:01:05" := by decide
  have hback := @clockLabel_typed_back 3665999 (by decide) (by decide)
  rw [hlabel] at hback
  exact ⟨by decide, by decide, hlabel, hback⟩

end

end DurationInput

end SpokenCountdown
