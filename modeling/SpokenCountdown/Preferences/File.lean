import SpokenCountdown.Preferences.Document

/-!
# The file of the preferences

Loading and saving preferences where they are kept. A file that is not there is
made when it is first loaded.
-/

namespace SpokenCountdown

inductive PreferencesFile where
  | absent
  | text (content : String)
  /-- A folder, which can be neither read nor written. -/
  | folder
  deriving DecidableEq, Repr

namespace PreferencesFile

def save (file : PreferencesFile) (p : Preferences) : Except PresetError PreferencesFile :=
  match file with
  | .folder => .error .save
  | _ => .ok (.text p.toText)

/-- Reads the preferences. Where there is no file, one with the defaults is made. -/
def load (file : PreferencesFile) : Except PresetError (PreferencesFile × Preferences) :=
  match file with
  | .folder => .error .load
  | .absent => .ok (.text (Preferences.toText {}), {})
  | .text content =>
    match Preferences.ofText? content with
    | some p => .ok (file, p)
    | none => .error .load

end PreferencesFile

end SpokenCountdown
