import SpokenCountdown.Settings

/-!
# Preferences

What is kept between sessions: the settings that a new countdown starts from, a
few presets with names, and how it sounds.
-/

namespace SpokenCountdown

structure Preset where
  name : String
  settings : Settings
  deriving DecidableEq, Repr

structure AudioSettings where
  enabled : Bool := true
  /-- From 0 to 100; more counts as 100. -/
  volume : Nat := 80
  /-- A voice of the speaker, its own choice if there is none. -/
  voice : Option String := none
  /-- Speed at the rate 1. -/
  wordsPerMinute : Nat := 160
  deriving DecidableEq, Repr

structure Preferences where
  defaults : Settings := {}
  presets : List Preset := []
  /-- Name of the preset that was saved or loaded last. -/
  active : Option String := none
  audio : AudioSettings := {}
  deriving DecidableEq, Repr

end SpokenCountdown
