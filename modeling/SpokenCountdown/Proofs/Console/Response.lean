import SpokenCountdown.Console
import SpokenCountdown.Proofs.Timeline.Quiet

/-!
# What one line can do

`Response` lists the ways in which a command can go, with its reply and the
console after it; `run_response` says that there are no others. What a line
preserves is then a case analysis over the list, without the commands
themselves. A history of a console is lines with anything that may come between
them.
-/

namespace SpokenCountdown.Console

section
variable {console : Console} {preferences : Preferences} {output : String}

-- ---------------------------------------------------------------------------
-- Preferences and their file
-- ---------------------------------------------------------------------------

def Writable (console : Console) : Prop :=
  ∀ storage ∈ console.storage, storage.file ≠ .folder

def keep (console : Console) (preferences : Preferences) : Console :=
  { console with
    preferences
    storage := console.storage.map fun storage =>
      { storage with file := (storage.file.save preferences).toOption.getD storage.file } }

theorem save_of_ne_folder {file : PreferencesFile} (h : file ≠ .folder) (p : Preferences) :
    file.save p = .ok (.text p.toText) := by
  cases file with
  | folder => exact absurd rfl h
  | absent | text => rfl

theorem persist_of_writable (h : console.Writable) :
    persist { console with preferences } = .ok (console.keep preferences) := by
  obtain ⟨_, storage, timeline, settings⟩ := console
  cases storage with
  | none => rfl
  | some storage =>
    have hsave := save_of_ne_folder (h storage rfl) preferences
    simp only [persist, keep, Option.map_some, hsave]
    rfl

theorem persist_of_not_writable (h : ¬ console.Writable) (preferences : Preferences) :
    persist { console with preferences } = .error .save ∧
      console.keep preferences = { console with preferences } := by
  obtain ⟨_, storage, timeline, settings⟩ := console
  rcases storage with _ | ⟨path, _ | content | _⟩
  case some.folder => exact ⟨rfl, rfl⟩
  all_goals exact absurd (by rintro storage ⟨⟩ <;> simp) h

theorem persist_getD (console : Console) (preferences : Preferences) :
    (persist { console with preferences }).toOption.getD { console with preferences } =
      console.keep preferences := by
  by_cases h : console.Writable
  · rw [persist_of_writable h]
    rfl
  · obtain ⟨hpersist, hkeep⟩ := persist_of_not_writable h preferences
    rw [hpersist, hkeep]
    rfl

end

-- ---------------------------------------------------------------------------
-- The list
-- ---------------------------------------------------------------------------

def edited? (console : Console) : Command → Option Preferences
  | .savePreset name => (console.preferences.savePreset name console.settings).toOption
  | .deletePreset name => (console.preferences.deletePreset name).toOption.map (·.1)
  | .renamePreset old new => (console.preferences.renamePreset old new).toOption
  | _ => none

def Command.order? : Command → Option SpokenCountdown.Command
  | .start => some .start
  | .pause => some .pause
  | .resume => some .resume
  | .stop silent => some (.stop silent)
  | .reset force => some (.reset force)
  | .restart => some .restart
  | _ => none

inductive Response (console : Console) : Command → Console → Reply → Prop where
  /-- A question. -/
  | told {command : Command} {output : String} : Response console command console (.done output)
  | left {output : String} : Response console .exit console (.quit output)
  /-- Refused before anything else was asked for it. -/
  | refused {command : Command} {message : String} :
      Response console command console (.failed message)
  | obeyed {command : Command} {order : SpokenCountdown.Command} {timeline : Timeline}
      {state : Countdown.State} (isOrder : command.order? = some order)
      (performed : console.timeline.perform order = (timeline, .ok state)) :
      Response console command { console with timeline } (.done (stateLine state))
  | disobeyed {command : Command} {order : SpokenCountdown.Command} {timeline : Timeline}
      {refusal : Countdown.Refusal} (isOrder : command.order? = some order)
      (performed : console.timeline.perform order = (timeline, .error refusal)) :
      Response console command { console with timeline } (.failed refusal.message)
  | configured {overrides : Overrides} {settings : Settings} {timeline : Timeline}
      {state : Countdown.State}
      (performed : console.timeline.perform (.configure settings) = (timeline, .ok state)) :
      Response console (.configure overrides) { console with timeline, settings }
        (.done (status timeline.snapshot))
  | unconfigured {overrides : Overrides} {settings : Settings} {timeline : Timeline}
      {refusal : Countdown.Refusal}
      (performed : console.timeline.perform (.configure settings) = (timeline, .error refusal)) :
      Response console (.configure overrides) { console with timeline }
        (.failed refusal.message)
  | saved {command : Command} {preferences : Preferences} {output : String}
      (edited : console.edited? command = some preferences) (writable : console.Writable) :
      Response console command (console.keep preferences) (.done output)
  | unsaved {command : Command} {preferences : Preferences}
      (edited : console.edited? command = some preferences) (unwritable : ¬ console.Writable) :
      Response console command (console.keep preferences) (.failed PresetError.save.message)
  | loaded {name : String} {preferences : Preferences} {settings : Settings}
      {timeline : Timeline} {state : Countdown.State}
      (found : console.preferences.loadPreset name = .ok (preferences, settings))
      (performed : console.timeline.perform (.configure settings) = (timeline, .ok state)) :
      Response console (.loadPreset name)
        { console.keep preferences with timeline, settings } (.done (status timeline.snapshot))
  | unloaded {name : String} {preferences : Preferences} {settings : Settings}
      {timeline : Timeline} {refusal : Countdown.Refusal}
      (found : console.preferences.loadPreset name = .ok (preferences, settings))
      (performed : console.timeline.perform (.configure settings) = (timeline, .error refusal)) :
      Response console (.loadPreset name) { console.keep preferences with timeline }
        (.failed refusal.message)

-- ---------------------------------------------------------------------------
-- The list is complete
-- ---------------------------------------------------------------------------

section
variable {console : Console} {command : Command} {preferences : Preferences}
  {order : SpokenCountdown.Command} {settings : Settings} {timeline : Timeline}
  {state : Countdown.State} {refusal : Countdown.Refusal}

theorem configure_ok (console : Console)
    (h : console.timeline.perform (.configure settings) = (timeline, .ok state)) :
    console.configure settings =
      ({ console with timeline, settings }, .done (status timeline.snapshot)) := by
  simp only [Console.configure, h]

theorem configure_error (console : Console)
    (h : console.timeline.perform (.configure settings) = (timeline, .error refusal)) :
    console.configure settings = ({ console with timeline }, .failed refusal.message) := by
  simp only [Console.configure, h]

theorem perform_response (horder : command.order? = some order) :
    Response console command (console.perform order).1 (console.perform order).2 := by
  unfold perform
  rcases hperformed : console.timeline.perform order with ⟨timeline, refusal | state⟩
  · exact .disobeyed horder hperformed
  · exact .obeyed horder hperformed

theorem savePreferences_response (hedited : console.edited? command = some preferences)
    (output : String) :
    Response console command (console.savePreferences preferences output).1
      (console.savePreferences preferences output).2 := by
  unfold savePreferences
  by_cases h : console.Writable
  · simp only [persist_of_writable h]
    exact .saved hedited h
  · obtain ⟨hpersist, hkeep⟩ := persist_of_not_writable h preferences
    simp only [hpersist]
    rw [← hkeep]
    exact .unsaved hedited h

theorem run_response (console : Console) (files : String → Option String) (command : Command) :
    Response console command (console.run files command).1 (console.run files command).2 := by
  cases command with
  | configure overrides =>
    simp only [run]
    cases overrides.apply files console.preferences.defaults with
    | error e => exact .refused
    | ok settings =>
      rcases hperformed : console.timeline.perform (.configure settings) with
        ⟨timeline, refusal | state⟩
      · simp only [console.configure_error hperformed]
        exact .unconfigured hperformed
      · simp only [console.configure_ok hperformed]
        exact .configured hperformed
  | start | pause | resume | stop | reset | restart => exact perform_response rfl
  | status | presets | config => exact .told
  | preview =>
    simp only [run]
    cases console.settings.session with
    | ok session => exact .told
    | error e => exact .refused
  | savePreset name =>
    simp only [run]
    cases hsave : console.preferences.savePreset name console.settings with
    | ok preferences => exact savePreferences_response (by rw [edited?, hsave]; rfl) _
    | error e => exact .refused
  | loadPreset name =>
    simp only [run]
    cases hload : console.preferences.loadPreset name with
    | error e => exact .refused
    | ok found =>
      rcases hperformed : console.timeline.perform (.configure found.2) with
        ⟨timeline, refusal | state⟩
      · simp only [persist_getD, (console.keep found.1).configure_error hperformed]
        exact .unloaded hload hperformed
      · simp only [persist_getD, (console.keep found.1).configure_ok hperformed]
        exact .loaded hload hperformed
  | deletePreset name =>
    simp only [run]
    cases hdelete : console.preferences.deletePreset name with
    | ok removed => exact savePreferences_response (by rw [edited?, hdelete]; rfl) _
    | error e => exact .refused
  | renamePreset old new =>
    simp only [run]
    cases hrename : console.preferences.renamePreset old new with
    | ok preferences => exact savePreferences_response (by rw [edited?, hrename]; rfl) _
    | error e => exact .refused
  | exit => exact .left

theorem respond_response (console : Console) (files : String → Option String) (text : String) :
    (∃ command, Request.ofLine text = .command command ∧
      Response console command (console.respond files text).1 (console.respond files text).2) ∨
    (console.respond files text).1 = console := by
  unfold respond
  cases Request.ofLine text with
  | command command => exact .inl ⟨command, rfl, console.run_response files command⟩
  | nothing | misuse | badQuoting => exact .inr rfl

end

-- ---------------------------------------------------------------------------
-- Histories
-- ---------------------------------------------------------------------------

inductive Happening where
  | line (files : String → Option String) (text : String)
  | lull (lull : Lull)
  /-- Something else stands where the preferences are kept. -/
  | replaced (file : PreferencesFile)

def happen (console : Console) : Happening → Console
  | .line files text => (console.respond files text).1
  | .lull lull => { console with timeline := console.timeline.lull lull }
  | .replaced file => { console with storage := console.storage.map ({ · with file }) }

def after (console : Console) (history : List Happening) : Console :=
  history.foldl happen console

end SpokenCountdown.Console
