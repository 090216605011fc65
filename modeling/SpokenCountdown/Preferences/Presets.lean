import SpokenCountdown.Preferences
import SpokenCountdown.Text.Blank

/-!
# Presets

Presets are saved, loaded, deleted and renamed by name. A new name is trimmed
and must not be empty; names are compared as they are. Nothing changes when an
operation is refused.
-/

namespace SpokenCountdown

inductive PresetError where
  | load
  | save
  | locate
  | notFound (name : String)
  | full (limit : Nat)
  | nameTaken (name : String)
  | emptyName
  deriving DecidableEq, Repr

def PresetError.message : PresetError → String
  | .load => "failed to load configuration"
  | .save => "failed to save configuration"
  | .locate => "failed to locate configuration file"
  | .notFound name => s!"preset '{name}' not found"
  | .full limit => s!"maximum presets reached ({limit})"
  | .nameTaken name => s!"preset name '{name}' already exists"
  | .emptyName => "preset name must not be empty"

namespace Preferences

def presetLimit : Nat := 12

def names (p : Preferences) : List String :=
  p.presets.map (·.name)

/-- The first preset of a name. -/
def preset? (p : Preferences) (name : String) : Option Preset :=
  p.presets.find? (·.name == name)

def updatePreset (name : String) (change : Preset → Preset) : List Preset → List Preset
  | [] => []
  | preset :: rest =>
    if preset.name = name then change preset :: rest
    else preset :: updatePreset name change rest

/-- Saves settings under a name: over the preset of that name if there is one,
behind all others if there is not. It becomes the active one. -/
def savePreset (p : Preferences) (name : String) (settings : Settings) :
    Except PresetError Preferences :=
  let name := Text.trim name
  if name = "" then .error .emptyName
  else if (p.preset? name).isSome then
    .ok { p with
      presets := updatePreset name (fun preset => { preset with settings }) p.presets
      active := some name }
  else if presetLimit ≤ p.presets.length then .error (.full presetLimit)
  else .ok { p with presets := p.presets ++ [⟨name, settings⟩], active := some name }

def loadPreset (p : Preferences) (name : String) : Except PresetError (Preferences × Settings) :=
  match p.preset? name with
  | none => .error (.notFound name)
  | some preset => .ok ({ p with active := some name }, preset.settings)

/-- Removes a preset and hands it back. If it was active, none is. -/
def deletePreset (p : Preferences) (name : String) : Except PresetError (Preferences × Preset) :=
  match p.preset? name with
  | none => .error (.notFound name)
  | some preset =>
    let active := if p.active = some name then none else p.active
    .ok ({ p with presets := p.presets.eraseP (·.name == name), active }, preset)

/-- Gives a preset another name, under which it stays active if it was. -/
def renamePreset (p : Preferences) (old new : String) : Except PresetError Preferences :=
  let new := Text.trim new
  if new = "" then .error .emptyName
  else if (p.preset? old).isNone then .error (.notFound old)
  else if new = old then .ok p
  else if (p.preset? new).isSome then .error (.nameTaken new)
  else
    let active := if p.active = some old then some new else p.active
    .ok { p with presets := updatePreset old (fun preset => { preset with name := new }) p.presets, active }

end Preferences

end SpokenCountdown
