import Mathlib.Data.List.Nodup
import SpokenCountdown.Proofs.Preferences.InPlace
import SpokenCountdown.Proofs.Text.Trimmed

/-!
# Presets are kept well

From the preferences of a first start, whatever is saved, loaded, deleted and
renamed: names are distinct, trimmed and not empty, there are at most as many
presets as the limit allows, and the active name is that of a preset. A call that
is refused changes nothing; one that is not leaves the presets of other names as
they are.

What a call does if it is not refused is written down once, in `Edited`; each of
the facts is then a case analysis of that.
-/

namespace SpokenCountdown

namespace Preferences

inductive Edited (p : Preferences) : Call → Reply → Preferences → Prop where
  | overwritten (hname : Text.trim name ≠ "")
      (h : Foremost (Text.trim name) front preset back p.presets) :
      Edited p (.save name settings) .done
        { p with
          presets := front ++ { preset with settings } :: back
          active := some (Text.trim name) }
  | added (hname : Text.trim name ≠ "") (habsent : Text.trim name ∉ p.names)
      (hroom : p.presets.length < presetLimit) :
      Edited p (.save name settings) .done
        { p with
          presets := p.presets ++ [⟨Text.trim name, settings⟩]
          active := some (Text.trim name) }
  | loaded (h : Foremost name front preset back p.presets) :
      Edited p (.load name) (.loaded preset.settings) { p with active := some name }
  | deleted (h : Foremost name front preset back p.presets) :
      Edited p (.delete name) (.deleted preset)
        { p with
          presets := front ++ back
          active := if p.active = some name then none else p.active }
  | kept (hname : Text.trim new ≠ "") (h : Foremost old front preset back p.presets)
      (hsame : Text.trim new = old) :
      Edited p (.rename old new) .done p
  | renamed (hname : Text.trim new ≠ "") (h : Foremost old front preset back p.presets)
      (habsent : Text.trim new ∉ p.names) :
      Edited p (.rename old new) .done
        { p with
          presets := front ++ { preset with name := Text.trim new } :: back
          active := if p.active = some old then some (Text.trim new) else p.active }

variable {name old new : String} {front back : List Preset} {preset : Preset} {p q : Preferences}
  {call : Call} {reply : Reply} {settings : Settings}

theorem preset?_eq_none_iff : p.preset? name = none ↔ name ∉ p.names := by
  simp [preset?, names]

theorem preset?_isSome_iff : (p.preset? name).isSome = true ↔ name ∈ p.names := by
  simp [preset?, names]

theorem Foremost.names (h : Foremost name front preset back p.presets) :
    p.names = front.map (·.name) ++ name :: back.map (·.name) := by
  simp [Preferences.names, h.split, h.named]

theorem Foremost.mem_names (h : Foremost name front preset back p.presets) : name ∈ p.names := by
  simp [h.names]

theorem savePreset_edited (h : p.savePreset name settings = .ok q) :
    Edited p (.save name settings) .done q := by
  unfold savePreset at h
  by_cases hempty : Text.trim name = ""
  · simp [hempty] at h
  cases hpreset : p.preset? (Text.trim name) with
  | some preset =>
    obtain ⟨front, back, hfirst⟩ := Foremost.of_find? hpreset
    simp only [hempty, hpreset, hfirst.updatePreset, if_false, Option.isSome_some, if_true] at h
    cases h
    exact .overwritten hempty hfirst
  | none =>
    by_cases hfull : presetLimit ≤ p.presets.length
    · simp [hempty, hpreset, hfull] at h
    simp only [hempty, hpreset, hfull, if_false, Option.isSome_none, Bool.false_eq_true] at h
    cases h
    exact .added hempty (preset?_eq_none_iff.mp hpreset) (Nat.lt_of_not_le hfull)

theorem loadPreset_edited (h : p.loadPreset name = .ok (q, settings)) :
    Edited p (.load name) (.loaded settings) q := by
  unfold loadPreset at h
  cases hpreset : p.preset? name with
  | none => simp [hpreset] at h
  | some preset =>
    obtain ⟨front, back, hfirst⟩ := Foremost.of_find? hpreset
    simp only [hpreset] at h
    cases h
    exact .loaded hfirst

theorem deletePreset_edited (h : p.deletePreset name = .ok (q, preset)) :
    Edited p (.delete name) (.deleted preset) q := by
  unfold deletePreset at h
  cases hpreset : p.preset? name with
  | none => simp [hpreset] at h
  | some preset =>
    obtain ⟨front, back, hfirst⟩ := Foremost.of_find? hpreset
    simp only [hpreset, hfirst.eraseP] at h
    cases h
    exact .deleted hfirst

theorem renamePreset_edited (h : p.renamePreset old new = .ok q) :
    Edited p (.rename old new) .done q := by
  unfold renamePreset at h
  by_cases hempty : Text.trim new = ""
  · simp [hempty] at h
  cases hpreset : p.preset? old with
  | none => simp [hempty, hpreset] at h
  | some preset =>
    obtain ⟨front, back, hfirst⟩ := Foremost.of_find? hpreset
    by_cases hsame : Text.trim new = old
    · have hold : old ≠ "" := hsame ▸ hempty
      simp only [hold, hpreset, hsame, if_false, if_true, Option.isNone_some,
        Bool.false_eq_true] at h
      cases h
      exact .kept hempty hfirst hsame
    cases htaken : p.preset? (Text.trim new) with
    | some other => simp [hempty, hpreset, hsame, htaken] at h
    | none =>
      simp only [hempty, hpreset, hsame, htaken, hfirst.updatePreset, if_false,
        Option.isNone_some, Option.isSome_none, Bool.false_eq_true] at h
      cases h
      exact .renamed hempty hfirst (preset?_eq_none_iff.mp htaken)

theorem answer_edited (h : call.answer p = .ok (reply, q)) : Edited p call reply q := by
  cases call with
  | save name settings =>
    cases hq : p.savePreset name settings <;> rw [Call.answer, hq] at h <;> cases h
    exact savePreset_edited hq
  | load name =>
    cases hq : p.loadPreset name <;> rw [Call.answer, hq] at h <;> cases h
    exact loadPreset_edited hq
  | delete name =>
    cases hq : p.deletePreset name <;> rw [Call.answer, hq] at h <;> cases h
    exact deletePreset_edited hq
  | rename old new =>
    cases hq : p.renamePreset old new <;> rw [Call.answer, hq] at h <;> cases h
    exact renamePreset_edited hq

-- ---------------------------------------------------------------------------
-- When a call is carried out
-- ---------------------------------------------------------------------------

def Call.Allowed (p : Preferences) : Call → Prop
  | .save name _ =>
    Text.trim name ≠ "" ∧ (Text.trim name ∈ p.names ∨ p.presets.length < presetLimit)
  | .load name => name ∈ p.names
  | .delete name => name ∈ p.names
  | .rename old new =>
    Text.trim new ≠ "" ∧ old ∈ p.names ∧ (Text.trim new = old ∨ Text.trim new ∉ p.names)

theorem Edited.allowed (h : Edited p call reply q) : call.Allowed p := by
  cases h with
  | overwritten hname h => exact ⟨hname, .inl h.mem_names⟩
  | added hname habsent hroom => exact ⟨hname, .inr hroom⟩
  | loaded h => exact h.mem_names
  | deleted h => exact h.mem_names
  | kept hname h hsame => exact ⟨hname, h.mem_names, .inl hsame⟩
  | renamed hname h habsent => exact ⟨hname, h.mem_names, .inr habsent⟩

theorem answer_of_allowed (h : call.Allowed p) : ∃ made, call.answer p = .ok made := by
  cases call with
  | save name settings =>
    obtain ⟨hname, hplace⟩ := h
    simp only [Call.answer, savePreset, if_neg hname]
    split
    · exact ⟨_, rfl⟩
    · next habsent =>
      have hroom : ¬ presetLimit ≤ p.presets.length :=
        Nat.not_le.mpr (hplace.resolve_left fun hmem => habsent (preset?_isSome_iff.mpr hmem))
      rw [if_neg hroom]
      exact ⟨_, rfl⟩
  | load name =>
    obtain ⟨preset, hpreset⟩ := Option.isSome_iff_exists.mp (preset?_isSome_iff.mpr h)
    simp only [Call.answer, loadPreset, hpreset]
    exact ⟨_, rfl⟩
  | delete name =>
    obtain ⟨preset, hpreset⟩ := Option.isSome_iff_exists.mp (preset?_isSome_iff.mpr h)
    simp only [Call.answer, deletePreset, hpreset]
    exact ⟨_, rfl⟩
  | rename old new =>
    obtain ⟨hname, hold, hfree⟩ := h
    obtain ⟨preset, hpreset⟩ := Option.isSome_iff_exists.mp (preset?_isSome_iff.mpr hold)
    simp only [Call.answer, renamePreset, if_neg hname, hpreset, Option.isNone_some,
      Bool.false_eq_true, if_false]
    split
    · exact ⟨_, rfl⟩
    · next hother =>
      have hfree : ¬ (p.preset? (Text.trim new)).isSome = true :=
        fun htaken => hfree.resolve_left hother (preset?_isSome_iff.mp htaken)
      rw [if_neg hfree]
      exact ⟨_, rfl⟩

-- ---------------------------------------------------------------------------
-- The rules for presets
-- ---------------------------------------------------------------------------

structure WellKept (p : Preferences) : Prop where
  distinct : p.names.Nodup
  named : ∀ name ∈ p.names, name ≠ "" ∧ Text.trim name = name
  limited : p.presets.length ≤ presetLimit
  marked : ∀ name, p.active = some name → name ∈ p.names

theorem wellKept_empty : WellKept {} where
  distinct := List.nodup_nil
  named _ hname := absurd hname List.not_mem_nil
  limited := Nat.zero_le _
  marked _ hactive := by cases hactive

theorem length_names (p : Preferences) : p.names.length = p.presets.length :=
  List.length_map _

theorem WellKept.activate (hwell : WellKept p) (hnames : q.names = p.names)
    (hactive : q.active = some name) (hname : name ∈ p.names) : WellKept q where
  distinct := hnames ▸ hwell.distinct
  named := hnames ▸ hwell.named
  limited := by rw [← length_names, hnames, length_names]; exact hwell.limited
  marked other hother := by
    obtain rfl : name = other := Option.some.inj (hactive.symm.trans hother)
    exact hnames ▸ hname

theorem WellKept.append (hwell : WellKept p) (hnames : q.names = p.names ++ [name])
    (hname : name ≠ "" ∧ Text.trim name = name) (habsent : name ∉ p.names)
    (hroom : p.presets.length < presetLimit) (hactive : q.active = some name) : WellKept q where
  distinct := by
    rw [hnames]
    exact List.nodup_append_comm.mp (List.nodup_cons.mpr ⟨habsent, hwell.distinct⟩)
  named other hother := by
    rw [hnames, List.mem_append, List.mem_singleton] at hother
    obtain hother | rfl := hother
    · exact hwell.named other hother
    · exact hname
  limited := by
    rw [← length_names, hnames, List.length_append, length_names]
    exact hroom
  marked other hother := by
    obtain rfl : name = other := Option.some.inj (hactive.symm.trans hother)
    simp [hnames]

variable {inFront behind : List String}

theorem WellKept.remove (hwell : WellKept p) (hp : p.names = inFront ++ name :: behind)
    (hq : q.names = inFront ++ behind)
    (hactive : q.active = if p.active = some name then none else p.active) : WellKept q := by
  have hsublist : q.names.Sublist p.names := by
    rw [hp, hq]
    exact (List.Sublist.refl _).append (List.sublist_cons_self ..)
  refine ⟨hsublist.nodup hwell.distinct, fun other h => hwell.named other (hsublist.mem h), ?_, ?_⟩
  · rw [← length_names]
    exact hsublist.length_le.trans (length_names p ▸ hwell.limited)
  · intro other hother
    rw [hactive] at hother
    split at hother
    · cases hother
    · next hname =>
      have hmem := hwell.marked other hother
      have hne : other ≠ name := fun h => hname (h ▸ hother)
      simpa [hp, hq, hne] using hmem

theorem WellKept.replace (hwell : WellKept p) (hp : p.names = inFront ++ old :: behind)
    (hq : q.names = inFront ++ new :: behind) (hname : new ≠ "" ∧ Text.trim new = new)
    (habsent : new ∉ p.names)
    (hactive : q.active = if p.active = some old then some new else p.active) : WellKept q := by
  have hothers : (inFront ++ behind).Sublist p.names := by
    rw [hp]
    exact (List.Sublist.refl _).append (List.sublist_cons_self ..)
  refine ⟨?_, ?_, ?_, ?_⟩
  · rw [hq, List.nodup_middle]
    exact List.nodup_cons.mpr ⟨fun h => habsent (hothers.mem h), hothers.nodup hwell.distinct⟩
  · intro other hother
    have hcases : other = new ∨ other ∈ inFront ++ behind := by
      simpa [hq, or_left_comm] using hother
    obtain rfl | hother := hcases
    · exact hname
    · exact hwell.named other (hothers.mem hother)
  · have hlimited := hwell.limited
    rw [← length_names, hp] at hlimited
    rw [← length_names, hq]
    simpa using hlimited
  · intro other hother
    rw [hactive] at hother
    split at hother
    · obtain rfl := Option.some.inj hother
      simp [hq]
    · next hold =>
      have hne : other ≠ old := fun h => hold (h ▸ hother)
      have hmem : other ∈ inFront ∨ other ∈ behind := by
        simpa [hp, hne] using hwell.marked other hother
      rw [hq, List.mem_append, List.mem_cons]
      exact hmem.imp_right .inr

theorem WellKept.edited (hwell : WellKept p) (h : Edited p call reply q) : WellKept q := by
  cases h with
  | overwritten hname h =>
    exact hwell.activate (by simp [names, h.split]) rfl h.mem_names
  | added hname habsent hroom =>
    exact hwell.append (by simp [names]) ⟨hname, Text.trim_trim _⟩ habsent hroom rfl
  | loaded h => exact hwell.activate rfl rfl h.mem_names
  | deleted h => exact hwell.remove h.names (by simp [names]) rfl
  | kept => exact hwell
  | renamed hname h habsent =>
    exact hwell.replace h.names (by simp [names]) ⟨hname, Text.trim_trim _⟩ habsent rfl

theorem WellKept.perform (hwell : WellKept p) (call : Call) : WellKept (p.perform call).2 := by
  rw [perform_eq]
  cases hanswer : call.answer p with
  | error e => exact hwell
  | ok made => exact hwell.edited (answer_edited hanswer)

theorem WellKept.after (hwell : WellKept p) (history : List Call) :
    WellKept (p.after history) := by
  induction history generalizing p with
  | nil => exact hwell
  | cons call rest ih => exact ih (hwell.perform call)

-- ---------------------------------------------------------------------------
-- What a call leaves alone
-- ---------------------------------------------------------------------------

def Call.addressed : Call → List String
  | .save name _ => [Text.trim name]
  | .load name => [name]
  | .delete name => [name]
  | .rename old new => [old, Text.trim new]

def others (p : Preferences) (call : Call) : List Preset :=
  p.presets.filter (·.name ∉ call.addressed)

theorem Edited.others (h : Edited p call reply q) : q.others call = p.others call := by
  cases h with
  | overwritten hname h => simp [Preferences.others, Call.addressed, h.split, h.named]
  | added hname habsent hroom => simp [Preferences.others, Call.addressed]
  | loaded h => rfl
  | deleted h => simp [Preferences.others, Call.addressed, h.split, h.named]
  | kept => rfl
  | renamed hname h habsent => simp [Preferences.others, Call.addressed, h.split, h.named]

theorem Edited.follows (h : Edited p (.rename old new) reply q) (hactive : p.active = some old) :
    q.active = some (Text.trim new) := by
  cases h with
  | kept hname h hsame => rw [hactive, hsame]
  | renamed hname h habsent => exact if_pos hactive

structure Contained (p : Preferences) (call : Call) : Prop where
  agrees : p.perform call = settled p (call.answer p)
  accepted : (∃ reply, (p.perform call).1 = .ok reply) ↔ call.Allowed p
  refused : ∀ e, (p.perform call).1 = .error e → (p.perform call).2 = p
  edited : ∀ reply, (p.perform call).1 = .ok reply → Edited p call reply (p.perform call).2
  others : ∀ reply, (p.perform call).1 = .ok reply →
    (p.perform call).2.others call = p.others call
  follows : ∀ old new reply, call = .rename old new → (p.perform call).1 = .ok reply →
    p.active = some old → (p.perform call).2.active = some (Text.trim new)

theorem contained (p : Preferences) (call : Call) : Contained p call := by
  have hagrees := perform_eq p call
  have hallowed (h : call.Allowed p) : ∃ reply, (p.perform call).1 = .ok reply := by
    obtain ⟨made, hmade⟩ := answer_of_allowed h
    exact ⟨made.1, by rw [hagrees, hmade, settled_ok]⟩
  have hedited (reply : Reply) (h : (p.perform call).1 = .ok reply) :
      Edited p call reply (p.perform call).2 := by
    rw [hagrees] at h ⊢
    cases hanswer : call.answer p with
    | error e =>
      rw [hanswer, settled_error] at h
      cases h
    | ok made =>
      rw [hanswer, settled_ok] at h
      cases h
      exact answer_edited hanswer
  constructor
  case agrees => exact hagrees
  case accepted => exact ⟨fun ⟨reply, h⟩ => (hedited reply h).allowed, hallowed⟩
  case refused =>
    intro e h
    rw [hagrees] at h ⊢
    cases hanswer : call.answer p with
    | error e => rfl
    | ok made =>
      rw [hanswer, settled_ok] at h
      cases h
  case edited => exact hedited
  case others => exact fun reply h => (hedited reply h).others
  case follows =>
    rintro old new reply rfl h hactive
    exact (hedited reply h).follows hactive

/-- After every history of calls the presets are kept well, and whatever call comes
next changes nothing if it is refused and no other preset if it is allowed. -/
theorem presets_kept (history : List Call) :
    WellKept (after {} history) ∧ ∀ call, Contained (after {} history) call :=
  ⟨wellKept_empty.after history, contained _⟩

end Preferences

end SpokenCountdown
