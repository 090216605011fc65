import SpokenCountdown.Reconciliation
import SpokenCountdown.SayItems

/-!
# Sessions

A session is what settings come to: the total, the reconciled announcements and
the choices the countdown consults while it runs.
-/

namespace SpokenCountdown

inductive SettingsError where
  | duration (input : String) (fault : Duration.Fault)
  | nothingToSay
  | sayItem (index : Nat) (fault : SayItem.Fault)
  deriving DecidableEq, Repr

def SettingsError.message : SettingsError → String
  | .duration input fault => s!"invalid duration '{input}': {fault.reason}"
  | .nothingToSay => "nothing to say: interval spec and say-data are both empty"
  | .sayItem index fault => s!"invalid say-data item {index}: {fault.reason}"

structure Sources where
  spec : String
  sayItems : List SayItem := []
  sayMode : SayMode := .override
  priority : Priority := .fraction
  phrases : Phrases := {}

namespace Sources

/-- Candidates in order of preference, given the announcements of the say items. -/
def candidates (sources : Sources) (total : Nat) (explicit : List Announcement) :
    List Announcement :=
  let generated := Reconciliation.candidates sources.spec total sources.priority sources.phrases
  match sources.sayMode with
  | .override => if explicit.isEmpty then generated else explicit
  | .merge => explicit ++ generated

def announcements (sources : Sources) (total : Nat) :
    Except SettingsError (List Announcement) :=
  if Text.isBlankText sources.spec && sources.sayItems.isEmpty then
    .error .nothingToSay
  else
    match SayItem.announcements sources.sayItems with
    | .error (index, fault) => .error (.sayItem index fault)
    | .ok explicit => .ok (Reconciliation.reconcile (sources.candidates total explicit) total)

end Sources

structure Session where
  /-- Length of the countdown in milliseconds. -/
  total : Nat
  /-- Descending in their offsets. -/
  announcements : List Announcement
  priority : Priority
  sayStart : Bool
  sayEnd : Bool
  endChime : Bool
  startMessage : String
  endMessage : String
  autoRestart : Option Nat
  allowPause : Bool
  earlyFire : Nat
  /-- Milliseconds between ticks, at least one. -/
  tick : Nat
  speechTimeout : Nat
  deriving DecidableEq, Repr

namespace Settings

def sources (settings : Settings) : Sources where
  spec := settings.say
  sayItems := settings.sayItems
  sayMode := settings.sayMode
  priority := settings.priority
  phrases := settings.phrases

/-- The duration is checked first, then whether there is anything to say, then the say items. -/
def session (settings : Settings) : Except SettingsError Session :=
  match settings.duration.milliseconds with
  | .error fault => .error (.duration settings.duration.shown fault)
  | .ok total =>
    match settings.sources.announcements total with
    | .error e => .error e
    | .ok announcements => .ok
      { total, announcements
        priority := settings.priority
        sayStart := settings.sayStart
        sayEnd := settings.sayEnd
        endChime := settings.endChime
        startMessage := settings.startMessage
        endMessage := settings.endMessage
        autoRestart := settings.autoRestart
        allowPause := settings.allowPause
        earlyFire := settings.earlyFire
        tick := max settings.tick 1
        speechTimeout := settings.speechTimeout }

end Settings

end SpokenCountdown
