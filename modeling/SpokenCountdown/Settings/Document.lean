import SpokenCountdown.Settings
import SpokenCountdown.Toml.Record

/-!
# Settings as documents

The records of settings, phrases and say items. What is left out when they are
read has its default; a say item needs its offset and message. Values that are
absent are left out when they are written.
-/

namespace SpokenCountdown

open Toml

namespace DurationInput

def toValue : DurationInput → Value
  | .number n => .ofNat n
  | .text s => .string s

def ofValue? : Value → Option DurationInput
  | .string s => some (.text s)
  | value => (value.nat? Text.word64).map .number

end DurationInput

namespace SayItem

def toValue (item : SayItem) : Value :=
  .table <| [("offset_ms", .ofNat item.offset), ("message", .string item.message)] ++
    Table.ofOption "rate" .float item.rate

def ofValue? (value : Value) : Option SayItem := do
  let t ← value.record? ["offset_ms", "message", "rate"]
  let offset ← t.need "offset_ms" (Value.nat? Text.word64)
  let message ← t.need "message" Value.string?
  let rate ← t.optional "rate" Value.single?
  some { offset, message, rate }

end SayItem

namespace Phrases

def toValue (phrases : Phrases) : Value :=
  .table [("gone", .string phrases.gone), ("to_go", .string phrases.toGo),
    ("half_way", .string phrases.halfWay)]

def ofValue? (value : Value) : Option Phrases := do
  let t ← value.record? ["gone", "to_go", "half_way"]
  let default : Phrases := {}
  let gone ← t.orDefault "gone" Value.string? default.gone
  let toGo ← t.orDefault "to_go" Value.string? default.toGo
  let halfWay ← t.orDefault "half_way" Value.string? default.halfWay
  some { gone, toGo, halfWay }

end Phrases

namespace Settings

def fieldNames : List String :=
  ["duration", "say", "say_data", "say_data_mode", "priority", "say_start", "say_end",
    "end_chime", "start_message", "end_message", "auto_restart_ms", "allow_pause", "phrases",
    "tick_ms", "early_fire_ms", "speech_timeout_ms"]

def toValue (settings : Settings) : Value :=
  .table <|
    [("duration", settings.duration.toValue), ("say", .string settings.say),
      ("say_data", .array (settings.sayItems.map SayItem.toValue)),
      ("say_data_mode", .string settings.sayMode.name),
      ("priority", .string settings.priority.name), ("say_start", .boolean settings.sayStart),
      ("say_end", .boolean settings.sayEnd), ("end_chime", .boolean settings.endChime),
      ("start_message", .string settings.startMessage),
      ("end_message", .string settings.endMessage)] ++
    Table.ofOption "auto_restart_ms" .ofNat settings.autoRestart ++
    [("allow_pause", .boolean settings.allowPause), ("phrases", settings.phrases.toValue),
      ("tick_ms", .ofNat settings.tick), ("early_fire_ms", .ofNat settings.earlyFire),
      ("speech_timeout_ms", .ofNat settings.speechTimeout)]

def ofValue? (value : Value) : Option Settings := do
  let t ← value.record? fieldNames
  let default : Settings := {}
  let word := Value.nat? Text.word64
  some
    { duration := ← t.orDefault "duration" DurationInput.ofValue? default.duration
      say := ← t.orDefault "say" Value.string? default.say
      sayItems := ← t.orDefault "say_data" (Value.list? SayItem.ofValue?) default.sayItems
      sayMode := ← t.orDefault "say_data_mode" (Value.choice? SayMode.ofName?) default.sayMode
      priority := ← t.orDefault "priority" (Value.choice? Priority.ofName?) default.priority
      sayStart := ← t.orDefault "say_start" Value.bool? default.sayStart
      sayEnd := ← t.orDefault "say_end" Value.bool? default.sayEnd
      endChime := ← t.orDefault "end_chime" Value.bool? default.endChime
      startMessage := ← t.orDefault "start_message" Value.string? default.startMessage
      endMessage := ← t.orDefault "end_message" Value.string? default.endMessage
      autoRestart := ← t.optional "auto_restart_ms" word
      allowPause := ← t.orDefault "allow_pause" Value.bool? default.allowPause
      phrases := ← t.orDefault "phrases" Phrases.ofValue? default.phrases
      tick := ← t.orDefault "tick_ms" word default.tick
      earlyFire := ← t.orDefault "early_fire_ms" word default.earlyFire
      speechTimeout := ← t.orDefault "speech_timeout_ms" word default.speechTimeout }

end Settings

end SpokenCountdown
