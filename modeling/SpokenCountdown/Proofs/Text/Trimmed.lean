import Mathlib.Data.List.DropRight
import SpokenCountdown.Text.Blank

/-!
# Trimmed texts

What was trimmed has nothing more to trim, and neither has a text without blanks.
-/

namespace SpokenCountdown.Text

theorem trimChars_trimChars (cs : List Char) : trimChars (trimChars cs) = trimChars cs := by
  have hbegins : trimChars cs <+: cs.dropWhile isBlank :=
    List.rdropWhile_prefix isBlank _
  have hfront : (trimChars cs).dropWhile isBlank = trimChars cs := by
    rw [List.dropWhile_eq_self_iff]
    intro hlength
    rw [hbegins.getElem]
    exact List.dropWhile_get_zero_not isBlank cs _
  have hback : (trimChars cs).rdropWhile isBlank = trimChars cs :=
    List.rdropWhile_idempotent isBlank _
  calc trimChars (trimChars cs)
      = ((trimChars cs).dropWhile isBlank).rdropWhile isBlank := rfl
    _ = trimChars cs := by rw [hfront, hback]

@[simp] theorem trim_trim (s : String) : trim (trim s) = trim s := by
  rw [trim, trim, String.toList_ofList, trimChars_trimChars]

theorem trimChars_eq_nil_iff {cs : List Char} :
    trimChars cs = [] ↔ ∀ c ∈ cs, isBlank c = true := by
  calc trimChars cs = []
      ↔ (cs.dropWhile isBlank).rdropWhile isBlank = [] := Iff.rfl
    _ ↔ ∀ c ∈ cs.dropWhile isBlank, isBlank c = true := List.rdropWhile_eq_nil_iff
    _ ↔ ∀ c ∈ cs, isBlank c = true := by
      constructor
      · intro h
        rw [← List.takeWhile_append_dropWhile (p := isBlank) (l := cs)]
        exact List.forall_mem_append.mpr ⟨fun c hc => List.mem_takeWhile_imp hc, h⟩
      · exact fun h c hc => h c ((List.dropWhile_sublist _).mem hc)

theorem trim_eq_empty_iff {s : String} : trim s = "" ↔ isBlankText s = true := by
  rw [trim, String.ofList_eq_empty_iff, trimChars_eq_nil_iff, isBlankText, List.all_eq_true]

theorem trimChars_of_solid {cs : List Char} (h : ∀ c ∈ cs, isBlank c = false) :
    trimChars cs = cs := by
  have hfront : cs.dropWhile isBlank = cs := by
    rw [List.dropWhile_eq_self_iff]
    intro hlength
    simp [h]
  have hback : cs.rdropWhile isBlank = cs := by
    rw [List.rdropWhile_eq_self_iff]
    intro hne
    simp [h]
  calc trimChars cs
      = (cs.dropWhile isBlank).rdropWhile isBlank := rfl
    _ = cs := by rw [hfront, hback]

end SpokenCountdown.Text
