import SpokenCountdown.Audio
import SpokenCountdown.Binary.Shortest
import SpokenCountdown.Console.Command
import SpokenCountdown.Preferences.File
import SpokenCountdown.Timeline

/-!
# The console

One line in, a reply out. The console holds the preferences and where they are
kept, the timeline, and the settings it was last configured with.
-/

namespace SpokenCountdown

structure Storage where
  /-- The path as it is shown. -/
  path : String
  file : PreferencesFile

structure Console where
  preferences : Preferences := {}
  /-- Without storage the preferences last as long as the console. -/
  storage : Option Storage := none
  timeline : Timeline := {}
  /-- Settings of the last successful configuration, the defaults before that. -/
  settings : Settings := {}

namespace Console

def ofPreferences (preferences : Preferences) (storage : Option Storage) (gateways : Gateways) :
    Console where
  preferences := preferences
  storage := storage
  timeline := { gateways }
  settings := preferences.defaults

def load (storage : Storage) (gateways : Gateways) : Except PresetError Console :=
  match storage.file.load with
  | .error e => .error e
  | .ok (file, preferences) =>
    .ok (ofPreferences preferences (some { storage with file }) gateways)

/-- The same, but preferences that cannot be read are the default ones and stay
where they are; how it sounds is among the preferences. -/
def loadOrDefault (storage : Storage) (gateways : AudioSettings → Gateways) : Console :=
  let (file, preferences) := storage.file.load.toOption.getD (storage.file, {})
  ofPreferences preferences (some { storage with file }) (gateways preferences.audio)

-- ---------------------------------------------------------------------------
-- Replies
-- ---------------------------------------------------------------------------

inductive Reply where
  | done (output : String)
  | quit (output : String)
  | failed (message : String)
  | misuse
  deriving DecidableEq, Repr

def line (text : String) : String :=
  text ++ "\n"

def decimal (n : Nat) : String :=
  String.ofList (Text.numeral n)

def padded (width : Nat) (text : String) : String :=
  String.ofList (List.replicate (width - text.length) ' ') ++ text

def stateLine (state : Countdown.State) : String :=
  line s!"timer {state.name}"

def statusLine (s : Snapshot) : String :=
  if s.state = .unset then "not configured"
  else
    s!"{s.state.name}: {s.label} of {Duration.clockLabel s.total} remaining " ++
      s!"({s.percent.oneDecimal}% left)"

def status (s : Snapshot) : String :=
  line (statusLine s) ++
    match s.next with
    | some a =>
      line s!"next: \"{a.message}\" at {Duration.clockLabel a.offset} ({decimal s.pending} pending)"
    | none => ""

def preview (session : Session) : String :=
  let announcements := session.announcements
  let row (a : Announcement) : String :=
    line ("  " ++ padded 8 (Duration.clockLabel a.offset) ++
      s!"  {a.message} (rate {a.rate.text .single})")
  line s!"{Duration.clockLabel session.total} total, {decimal announcements.length} announcements" ++
    "".intercalate (announcements.map row)

def presetList (p : Preferences) : String :=
  if p.presets.isEmpty then line "no presets saved"
  else
    let row (name : String) : String :=
      line ((if p.active = some name then "* " else "  ") ++ name)
    "".intercalate (p.names.map row)

def configLines (console : Console) : String :=
  let audio := console.preferences.audio
  let place := match console.storage with
    | some storage => storage.path
    | none => "none (presets are not saved)"
  let switch := if audio.enabled then "on" else "off"
  let voice := audio.voice.getD "default"
  line s!"config file: {place}" ++
    line (s!"audio: {switch} (volume {decimal audio.volume}, {decimal audio.wordsPerMinute} wpm, " ++
      s!"voice {voice})") ++
    line (s!"{decimal console.preferences.presets.length} of {decimal Preferences.presetLimit} " ++
      "presets used")

-- ---------------------------------------------------------------------------
-- Commands
-- ---------------------------------------------------------------------------

def persist (console : Console) : Except PresetError Console :=
  match console.storage with
  | none => .ok console
  | some storage =>
    match storage.file.save console.preferences with
    | .ok file => .ok { console with storage := some { storage with file } }
    | .error e => .error e

/-- Takes over changed preferences, which stay even if they cannot be saved. -/
def savePreferences (console : Console) (preferences : Preferences) (output : String) :
    Console × Reply :=
  let console := { console with preferences }
  match console.persist with
  | .ok saved => (saved, .done (line output))
  | .error e => (console, .failed e.message)

def perform (console : Console) (command : SpokenCountdown.Command) : Console × Reply :=
  let (timeline, result) := console.timeline.perform command
  let reply := match result with
    | .ok state => .done (stateLine state)
    | .error refusal => .failed refusal.message
  ({ console with timeline }, reply)

/-- Configures the timeline. The settings are kept if it takes them. -/
def configure (console : Console) (settings : Settings) : Console × Reply :=
  let (timeline, result) := console.timeline.perform (.configure settings)
  match result with
  | .ok _ => ({ console with timeline, settings }, .done (status timeline.snapshot))
  | .error refusal => ({ console with timeline }, .failed refusal.message)

/-- Answers a command. `files` gives the text of a file, if there is such a file. -/
def run (console : Console) (files : String → Option String) : Command → Console × Reply
  | .configure overrides =>
    match overrides.apply files console.preferences.defaults with
    | .ok settings => console.configure settings
    | .error e => (console, .failed e.message)
  | .start => console.perform .start
  | .pause => console.perform .pause
  | .resume => console.perform .resume
  | .stop silent => console.perform (.stop silent)
  | .reset force => console.perform (.reset force)
  | .restart => console.perform .restart
  | .status => (console, .done (status console.timeline.snapshot))
  | .preview =>
    match console.settings.session with
    | .ok session => (console, .done (preview session))
    | .error e => (console, .failed e.message)
  | .savePreset name =>
    match console.preferences.savePreset name console.settings with
    | .ok preferences =>
      console.savePreferences preferences s!"saved preset '{Text.trim name}'"
    | .error e => (console, .failed e.message)
  | .loadPreset name =>
    match console.preferences.loadPreset name with
    | .ok (preferences, settings) =>
      let console := { console with preferences }
      (console.persist.toOption.getD console).configure settings
    | .error e => (console, .failed e.message)
  | .deletePreset name =>
    match console.preferences.deletePreset name with
    | .ok (preferences, preset) =>
      console.savePreferences preferences s!"deleted preset '{preset.name}'"
    | .error e => (console, .failed e.message)
  | .renamePreset old new =>
    match console.preferences.renamePreset old new with
    | .ok preferences =>
      console.savePreferences preferences s!"renamed preset '{old}' to '{Text.trim new}'"
    | .error e => (console, .failed e.message)
  | .presets => (console, .done (presetList console.preferences))
  | .config => (console, .done console.configLines)
  | .exit => (console, .quit "quitting...")

def respond (console : Console) (files : String → Option String) (text : String) :
    Console × Reply :=
  match Request.ofLine text with
  | .nothing => (console, .done "")
  | .command command => console.run files command
  | .misuse => (console, .misuse)
  | .badQuoting => (console, .failed "error: Invalid quoting")

end Console

end SpokenCountdown
