import Mathlib.Data.List.Basic
import SpokenCountdown.Preferences.Presets

/-!
# Preferences changed in place

The operations on presets hand back new preferences, so that a refusal cannot
have changed any. A program that holds its preferences in one place changes them
step by step instead, and what was changed before a refusal stays. Here the
operations are written that way: find a position, change what stands there, set
the active name. `perform_eq` says that both ways come to the same, which means
in particular that each refusal comes before the first change.
-/

namespace SpokenCountdown.Preferences

variable {name : String} {presets front back : List Preset} {preset : Preset}
  {change : Preset → Preset}

-- ---------------------------------------------------------------------------
-- The first preset of a name
-- ---------------------------------------------------------------------------

/-- The first preset of a name, with those in front of it and behind it. -/
structure Foremost (name : String) (front : List Preset) (preset : Preset)
    (back presets : List Preset) : Prop where
  split : presets = front ++ preset :: back
  named : preset.name = name
  first : ∀ other ∈ front, other.name ≠ name

namespace Foremost

theorem of_find? (h : presets.find? (·.name == name) = some preset) :
    ∃ front back, Foremost name front preset back presets := by
  obtain ⟨hname, front, back, hsplit, hfirst⟩ := List.find?_eq_some_iff_append.mp h
  exact ⟨front, back, hsplit, by simpa using hname, by simpa using hfirst⟩

theorem findIdx? (h : Foremost name front preset back presets) :
    presets.findIdx? (·.name == name) = some front.length := by
  obtain ⟨rfl, hname, hfirst⟩ := h
  have hnone : front.findIdx? (·.name == name) = none := by simpa using hfirst
  simp [List.findIdx?_append, hnone, List.findIdx?_cons, hname]

theorem modify (h : Foremost name front preset back presets) :
    presets.modify front.length change = front ++ change preset :: back := by
  simp [h.split, List.modify_eq_take_cons_drop]

theorem eraseIdx (h : Foremost name front preset back presets) :
    presets.eraseIdx front.length = front ++ back := by
  simp [h.split, List.eraseIdx_append_of_length_le]

theorem updatePreset (h : Foremost name front preset back presets) :
    updatePreset name change presets = front ++ change preset :: back := by
  obtain ⟨rfl, hname, hfirst⟩ := h
  induction front with
  | nil => simp [Preferences.updatePreset, hname]
  | cons other rest ih =>
    have hother : other.name ≠ name := hfirst other List.mem_cons_self
    have hrest := ih fun x hx => hfirst x (List.mem_cons_of_mem _ hx)
    simp [Preferences.updatePreset, hother, hrest]

theorem eraseP (h : Foremost name front preset back presets) :
    presets.eraseP (·.name == name) = front ++ back := by
  obtain ⟨rfl, hname, hfirst⟩ := h
  rw [List.eraseP_append_right _ (by simpa using hfirst)]
  simp [hname]

end Foremost

-- ---------------------------------------------------------------------------
-- Editing
-- ---------------------------------------------------------------------------

/-- A computation that changes preferences in place and may be refused. Changes
made before the refusal stay. -/
abbrev Editing := ExceptT PresetError (StateM Preferences)

namespace Editing

def on (x : Editing α) (p : Preferences) : Except PresetError α × Preferences :=
  x p

@[simp] theorem on_pure (a : α) (p : Preferences) : (pure a : Editing α).on p = (.ok a, p) := rfl

@[simp] theorem on_throw (e : PresetError) (p : Preferences) :
    (throw e : Editing α).on p = (.error e, p) := rfl

@[simp] theorem on_get (p : Preferences) : (get : Editing Preferences).on p = (.ok p, p) := rfl

@[simp] theorem on_modify (change : Preferences → Preferences) (p : Preferences) :
    (modify change : Editing Unit).on p = (.ok (), change p) := rfl

@[simp] theorem on_bind (x : Editing α) (f : α → Editing β) (p : Preferences) :
    (x >>= f).on p = match x.on p with
      | (.ok a, q) => (f a).on q
      | (.error e, q) => (.error e, q) := by
  simp only [on, bind, ExceptT.bind, ExceptT.mk, StateT.bind]
  rcases x p with ⟨_ | a, q⟩ <;> rfl

@[simp] theorem on_map (f : α → β) (x : Editing α) (p : Preferences) :
    (f <$> x).on p = ((x.on p).1.map f, (x.on p).2) := by
  simp only [on, Functor.map, ExceptT.map, ExceptT.mk, bind, StateT.bind]
  rcases x p with ⟨_ | a, q⟩ <;> rfl

-- ---------------------------------------------------------------------------
-- The operations, step by step
-- ---------------------------------------------------------------------------

def mark (name : Option String) : Editing Unit :=
  modify ({ · with active := name })

def locate (name : String) : Editing (Nat × Preset) := do
  let presets := (← get).presets
  match presets.findFinIdx? (·.name == name) with
  | some i => return (i, presets[i])
  | none => throw (.notFound name)

def save (name : String) (settings : Settings) : Editing Unit := do
  let name := Text.trim name
  if name = "" then throw .emptyName
  match (← get).presets.findIdx? (·.name == name) with
  | some i =>
    modify fun p => { p with presets := p.presets.modify i ({ · with settings }) }
    mark (some name)
  | none =>
    if presetLimit ≤ (← get).presets.length then throw (.full presetLimit)
    modify fun p => { p with presets := p.presets ++ [⟨name, settings⟩] }
    mark (some name)

def load (name : String) : Editing Settings := do
  let (_, preset) ← locate name
  mark (some name)
  return preset.settings

def delete (name : String) : Editing Preset := do
  let (i, preset) ← locate name
  if (← get).active = some name then mark none
  modify fun p => { p with presets := p.presets.eraseIdx i }
  return preset

def rename (old new : String) : Editing Unit := do
  let new := Text.trim new
  if new = "" then throw .emptyName
  let (i, _) ← locate old
  if new = old then return
  if ((← get).presets.findIdx? (·.name == new)).isSome then throw (.nameTaken new)
  modify fun p => { p with presets := p.presets.modify i ({ · with name := new }) }
  if (← get).active = some old then mark (some new)

end Editing

-- ---------------------------------------------------------------------------
-- Calls as data
-- ---------------------------------------------------------------------------

inductive Call where
  | save (name : String) (settings : Settings)
  | load (name : String)
  | delete (name : String)
  | rename (old new : String)
  deriving DecidableEq, Repr

inductive Reply where
  | done
  | loaded (settings : Settings)
  | deleted (preset : Preset)
  deriving DecidableEq, Repr

namespace Call

def answer (p : Preferences) : Call → Except PresetError (Reply × Preferences)
  | .save name settings => (p.savePreset name settings).map fun q => (.done, q)
  | .load name => (p.loadPreset name).map fun (q, settings) => (.loaded settings, q)
  | .delete name => (p.deletePreset name).map fun (q, preset) => (.deleted preset, q)
  | .rename old new => (p.renamePreset old new).map fun q => (.done, q)

def edit : Call → Editing Reply
  | .save name settings => do Editing.save name settings; return .done
  | .load name => return .loaded (← Editing.load name)
  | .delete name => return .deleted (← Editing.delete name)
  | .rename old new => do Editing.rename old new; return .done

end Call

def perform (p : Preferences) (call : Call) : Except PresetError Reply × Preferences :=
  call.edit.on p

def after (p : Preferences) (history : List Call) : Preferences :=
  history.foldl (fun p call => (p.perform call).2) p

/-- What an operation that hands back new preferences comes to in place: if it is
refused, nothing has changed. -/
def settled (p : Preferences) :
    Except PresetError (α × Preferences) → Except PresetError α × Preferences
  | .ok (a, q) => (.ok a, q)
  | .error e => (.error e, p)

@[simp] theorem settled_ok (p q : Preferences) (a : α) : settled p (.ok (a, q)) = (.ok a, q) := rfl

@[simp] theorem settled_error (p : Preferences) (e : PresetError) :
    settled p (.error e : Except PresetError (α × Preferences)) = (.error e, p) := rfl

-- ---------------------------------------------------------------------------
-- Each operation comes to the same
-- ---------------------------------------------------------------------------

theorem Foremost.on_locate {p : Preferences} (h : Foremost name front preset back p.presets) :
    (Editing.locate name).on p = (.ok (front.length, preset), p) := by
  have hidx := h.findIdx?
  rw [List.findIdx?_eq_map_findFinIdx?_val] at hidx
  obtain ⟨i, hi, hval⟩ := Option.map_eq_some_iff.mp hidx
  simp [Editing.locate, hi, hval, h.split]

theorem on_locate_absent {p : Preferences} (h : p.preset? name = none) :
    (Editing.locate name).on p = (.error (.notFound name), p) := by
  have hnone : p.presets.findFinIdx? (·.name == name) = none := by
    simpa [preset?, List.find?_eq_none, List.findFinIdx?_eq_none_iff] using h
  simp [Editing.locate, hnone]

theorem findIdx?_absent {p : Preferences} (h : p.preset? name = none) :
    p.presets.findIdx? (·.name == name) = none := by
  simpa [preset?, List.find?_eq_none, List.findIdx?_eq_none_iff] using h

theorem on_save (p : Preferences) (name : String) (settings : Settings) :
    (Editing.save name settings).on p = settled p ((p.savePreset name settings).map ((), ·)) := by
  unfold Editing.save savePreset
  by_cases hempty : Text.trim name = ""
  · simp [hempty, Except.map]
  cases hpreset : p.preset? (Text.trim name) with
  | some preset =>
    obtain ⟨front, back, h⟩ := Foremost.of_find? hpreset
    simp [hempty, hpreset, h.findIdx?, h.modify, h.updatePreset, Editing.mark, Except.map]
  | none =>
    have hnone := findIdx?_absent hpreset
    by_cases hfull : presetLimit ≤ p.presets.length
    · simp [hempty, hpreset, hnone, hfull, Except.map]
    · simp [hempty, hpreset, hnone, hfull, Editing.mark, Except.map]

theorem on_load (p : Preferences) (name : String) :
    (Editing.load name).on p = settled p ((p.loadPreset name).map fun (q, s) => (s, q)) := by
  unfold Editing.load loadPreset
  cases hpreset : p.preset? name with
  | none => simp [on_locate_absent hpreset, Except.map]
  | some preset =>
    obtain ⟨front, back, h⟩ := Foremost.of_find? hpreset
    simp [h.on_locate, Editing.mark, Except.map]

theorem on_delete (p : Preferences) (name : String) :
    (Editing.delete name).on p = settled p ((p.deletePreset name).map fun (q, s) => (s, q)) := by
  unfold Editing.delete deletePreset
  cases hpreset : p.preset? name with
  | none => simp [on_locate_absent hpreset, Except.map]
  | some preset =>
    obtain ⟨front, back, h⟩ := Foremost.of_find? hpreset
    by_cases hactive : p.active = some name
    · simp [h.on_locate, h.eraseIdx, h.eraseP, hactive, Editing.mark, Except.map]
    · simp [h.on_locate, h.eraseIdx, h.eraseP, hactive, Except.map]

theorem on_rename (p : Preferences) (old new : String) :
    (Editing.rename old new).on p = settled p ((p.renamePreset old new).map ((), ·)) := by
  unfold Editing.rename renamePreset
  by_cases hempty : Text.trim new = ""
  · simp [hempty, Except.map]
  cases hpreset : p.preset? old with
  | none => simp [hempty, on_locate_absent hpreset, Except.map]
  | some preset =>
    obtain ⟨front, back, h⟩ := Foremost.of_find? hpreset
    by_cases hsame : Text.trim new = old
    · have hold : old ≠ "" := hsame ▸ hempty
      simp [hold, h.on_locate, hsame, Except.map]
    -- the look for another preset of the new name is kept a position, as in `findIdx?_absent`
    cases htaken : p.preset? (Text.trim new) with
    | some other =>
      obtain ⟨_, _, hother⟩ := Foremost.of_find? htaken
      simp [hempty, h.on_locate, hsame, htaken, hother.findIdx?, Except.map,
        -List.findIdx?_isSome]
    | none =>
      have hnone := findIdx?_absent htaken
      by_cases hactive : p.active = some old
      · simp [hempty, h.on_locate, h.modify, h.updatePreset, hsame, htaken, hnone,
          hactive, Editing.mark, Except.map, -List.findIdx?_isSome]
      · simp [hempty, h.on_locate, h.modify, h.updatePreset, hsame, htaken, hnone,
          hactive, Except.map, -List.findIdx?_isSome]

theorem perform_eq (p : Preferences) (call : Call) : p.perform call = settled p (call.answer p) := by
  cases call with
  | save name settings =>
    simp only [perform, Call.edit, Call.answer, Editing.on_bind, on_save]
    cases p.savePreset name settings <;> rfl
  | load name =>
    simp only [perform, Call.edit, Call.answer, Editing.on_bind, on_load]
    cases p.loadPreset name <;> rfl
  | delete name =>
    simp only [perform, Call.edit, Call.answer, Editing.on_bind, on_delete]
    cases p.deletePreset name <;> rfl
  | rename old new =>
    simp only [perform, Call.edit, Call.answer, Editing.on_bind, on_rename]
    cases p.renamePreset old new <;> rfl

end SpokenCountdown.Preferences
