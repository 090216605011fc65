import SpokenCountdown.Proofs.Preferences.WellKept

/-!
# Presets are recalled

A new name is trimmed, a name that is looked up is not. So what is saved or renamed
is recalled under the trimmed name, whatever the preferences were, and all that is
recalled under another name stays: `recalled_trimmed`. A name with a blank at one of
its ends is such another name: `untrimmed_not_recalled`.
-/

namespace SpokenCountdown.Preferences

/-- There is a preset of the name to be loaded, with these settings. -/
def Recalls (p : Preferences) (name : String) (settings : Settings) : Prop :=
  p.loadPreset name = .ok ({ p with active := some name }, settings)

section
variable {name other old new : String} {front back : List Preset} {preset changed : Preset}
  {p q : Preferences} {reply : Reply} {settings : Settings}

-- ---------------------------------------------------------------------------
-- What is found under a name
-- ---------------------------------------------------------------------------

theorem recalls_iff : p.Recalls name settings ↔
    ∃ preset, p.preset? name = some preset ∧ preset.settings = settings := by
  unfold Recalls loadPreset
  cases p.preset? name <;> simp

theorem Foremost.recalls (h : Foremost name front preset back p.presets)
    (hsettings : preset.settings = settings) : p.Recalls name settings := by
  have hnone : front.find? (·.name == name) = none := by simpa using h.first
  refine recalls_iff.mpr ⟨preset, ?_, hsettings⟩
  simp [preset?, h.split, List.find?_append, hnone, h.named]

theorem preset?_of_changed (hp : p.presets = front ++ preset :: back)
    (hq : q.presets = front ++ changed :: back) (hpreset : preset.name ≠ other)
    (hchanged : changed.name ≠ other) : q.preset? other = p.preset? other := by
  simp [preset?, hp, hq, List.find?_append, hpreset, hchanged]

theorem preset?_of_added (hq : q.presets = p.presets ++ [changed])
    (hchanged : changed.name ≠ other) : q.preset? other = p.preset? other := by
  simp [preset?, hq, List.find?_append, hchanged]

theorem name_ne_of_absent (habsent : name ∉ p.names) :
    ∀ preset ∈ p.presets, preset.name ≠ name := by
  rintro preset hpreset rfl
  exact habsent (List.mem_map_of_mem hpreset)

-- ---------------------------------------------------------------------------
-- Saving
-- ---------------------------------------------------------------------------

theorem Edited.recalls_saved (h : Edited p (.save name settings) reply q) :
    q.Recalls (Text.trim name) settings := by
  cases h with
  | overwritten hname h => exact Foremost.recalls ⟨rfl, h.named, h.first⟩ rfl
  | added hname habsent => exact Foremost.recalls ⟨rfl, rfl, name_ne_of_absent habsent⟩ rfl

theorem Edited.preset?_saved (h : Edited p (.save name settings) reply q)
    (hother : Text.trim name ≠ other) : q.preset? other = p.preset? other := by
  cases h with
  | overwritten hname h =>
    exact preset?_of_changed h.split rfl (h.named ▸ hother) (h.named ▸ hother)
  | added => exact preset?_of_added rfl hother

-- ---------------------------------------------------------------------------
-- Renaming
-- ---------------------------------------------------------------------------

theorem Edited.recalls_renamed (h : Edited p (.rename old new) reply q) :
    ∃ settings, p.Recalls old settings ∧ q.Recalls (Text.trim new) settings := by
  cases h with
  | kept hname h hsame =>
    subst hsame
    exact ⟨_, h.recalls rfl, h.recalls rfl⟩
  | renamed hname h habsent =>
    refine ⟨_, h.recalls rfl, Foremost.recalls ⟨rfl, rfl, fun preset hpreset => ?_⟩ rfl⟩
    exact name_ne_of_absent habsent preset (h.split ▸ List.mem_append_left _ hpreset)

theorem Edited.preset?_renamed (h : Edited p (.rename old new) reply q) (hold : old ≠ other)
    (hnew : Text.trim new ≠ other) : q.preset? other = p.preset? other := by
  cases h with
  | kept => rfl
  | renamed hname h habsent => exact preset?_of_changed h.split rfl (h.named ▸ hold) hnew

theorem recalls_congr (h : q.preset? other = p.preset? other) :
    q.Recalls other settings ↔ p.Recalls other settings := by
  rw [recalls_iff, recalls_iff, h]

end

/-- What was saved is recalled under the trimmed name, and what was renamed is
recalled under the trimmed new name as it was under the old one. Under any other
name there is what there was. -/
theorem recalled_trimmed (p : Preferences) :
    (∀ name settings q, p.savePreset name settings = .ok q →
      q.Recalls (Text.trim name) settings ∧
        ∀ other s, Text.trim name ≠ other → (q.Recalls other s ↔ p.Recalls other s)) ∧
      ∀ old new q, p.renamePreset old new = .ok q →
        (∃ settings, p.Recalls old settings ∧ q.Recalls (Text.trim new) settings) ∧
          ∀ other s, old ≠ other → Text.trim new ≠ other →
            (q.Recalls other s ↔ p.Recalls other s) := by
  refine ⟨fun name settings q h => ?_, fun old new q h => ?_⟩
  · have hedited := savePreset_edited h
    exact ⟨hedited.recalls_saved, fun other s hother =>
      recalls_congr (hedited.preset?_saved hother)⟩
  · have hedited := renamePreset_edited h
    exact ⟨hedited.recalls_renamed, fun other s hold hnew =>
      recalls_congr (hedited.preset?_renamed hold hnew)⟩

/-- A name with blanks around it is given to a preset, but the preset is not found under it. -/
theorem untrimmed_not_recalled :
    (¬ ∀ (p : Preferences) name settings q, p.savePreset name settings = .ok q →
        q.Recalls name settings) ∧
      ¬ ∀ (p : Preferences) old new q settings, p.renamePreset old new = .ok q →
        p.Recalls old settings → q.Recalls new settings := by
  constructor
  · intro h
    have hsaved : ({} : Preferences).savePreset " a " {} =
        .ok { presets := [⟨"a", {}⟩], active := some "a" } := by decide
    have hload := h _ _ _ _ hsaved
    unfold Recalls at hload
    revert hload
    decide
  · intro h
    have hrenamed : ({ presets := [⟨"a", {}⟩] } : Preferences).renamePreset "a" " b " =
        .ok { presets := [⟨"b", {}⟩] } := by decide
    have hload := h _ _ _ _ {} hrenamed (by unfold Recalls; decide)
    unfold Recalls at hload
    revert hload
    decide

end SpokenCountdown.Preferences
