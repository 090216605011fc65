import SpokenCountdown.Preferences.Presets
import SpokenCountdown.Settings.Document
import SpokenCountdown.Toml.Printer

/-!
# Preferences as documents

The records of preferences, presets and audio settings, and the text that holds
them. A preset needs its name and settings; everything else may be
left out.
-/

namespace SpokenCountdown

open Toml

namespace Preset

def toValue (preset : Preset) : Value :=
  .table [("name", .string preset.name), ("settings", preset.settings.toValue)]

def ofValue? (value : Value) : Option Preset := do
  let t ← value.record? ["name", "settings"]
  let name ← t.need "name" Value.string?
  let settings ← t.need "settings" Settings.ofValue?
  some { name, settings }

end Preset

namespace AudioSettings

def toValue (audio : AudioSettings) : Value :=
  .table <| [("enabled", .boolean audio.enabled), ("volume", .ofNat audio.volume)] ++
    Table.ofOption "voice" .string audio.voice ++
    [("words_per_minute", .ofNat audio.wordsPerMinute)]

def ofValue? (value : Value) : Option AudioSettings := do
  let t ← value.record? ["enabled", "volume", "voice", "words_per_minute"]
  let default : AudioSettings := {}
  let enabled ← t.orDefault "enabled" Value.bool? default.enabled
  let volume ← t.orDefault "volume" (Value.nat? 256) default.volume
  let voice ← t.optional "voice" Value.string?
  let wordsPerMinute ←
    t.orDefault "words_per_minute" (Value.nat? Text.word32) default.wordsPerMinute
  some { enabled, volume, voice, wordsPerMinute }

end AudioSettings

namespace Preferences

def toTable (p : Preferences) : Table :=
  [("defaults", p.defaults.toValue), ("presets", .array (p.presets.map Preset.toValue))] ++
    Table.ofOption "active_preset_name" .string p.active ++ [("audio", p.audio.toValue)]

def ofTable? (t : Table) : Option Preferences := do
  let t ← t.record? ["defaults", "presets", "active_preset_name", "audio"]
  let defaults ← t.orDefault "defaults" Settings.ofValue? {}
  let presets ← t.orDefault "presets" (Value.list? Preset.ofValue?) []
  let active ← t.optional "active_preset_name" Value.string?
  let audio ← t.orDefault "audio" AudioSettings.ofValue? {}
  some { defaults, presets, active, audio }

def toText (p : Preferences) : String :=
  Table.write .single p.toTable

def ofText? (text : String) : Option Preferences :=
  (Table.ofText? text).bind ofTable?

end Preferences

end SpokenCountdown
