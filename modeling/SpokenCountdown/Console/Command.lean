import SpokenCountdown.Console.Options
import SpokenCountdown.SayItems.File
import SpokenCountdown.Text.ShellWords

/-!
# Commands of the console

The commands, the options each of them takes, and what `configure` changes in
the settings it starts from.
-/

namespace SpokenCountdown.Console

structure Overrides where
  duration : Option String := none
  say : Option String := none
  sayFile : Option String := none
  merge : Bool := false
  priority : Option Priority := none
  sayStart : Bool := false
  noSayEnd : Bool := false
  noEndChime : Bool := false
  autoRestart : Option Nat := none
  noPause : Bool := false
  deriving DecidableEq, Repr

def Overrides.apply (o : Overrides) (files : String → Option String) (base : Settings) :
    Except SayItem.FileError Settings := do
  let sayItems ← match o.sayFile with
    | some path => SayItem.ofFile path (files path)
    | none => pure base.sayItems
  pure { base with
    duration := o.duration.elim base.duration DurationInput.ofArgument
    say := o.say.getD base.say
    sayItems
    sayMode := if o.merge then .merge else base.sayMode
    priority := o.priority.getD base.priority
    sayStart := base.sayStart || o.sayStart
    sayEnd := base.sayEnd && !o.noSayEnd
    endChime := base.endChime && !o.noEndChime
    autoRestart := o.autoRestart.or base.autoRestart
    allowPause := base.allowPause && !o.noPause }

inductive Command where
  | configure (overrides : Overrides)
  | start
  | pause
  | resume
  | stop (silent : Bool)
  | reset (force : Bool)
  | restart
  | status
  | preview
  | savePreset (name : String)
  | loadPreset (name : String)
  | deletePreset (name : String)
  | renamePreset (old new : String)
  | presets
  | config
  | exit
  deriving DecidableEq, Repr

namespace Command

-- ---------------------------------------------------------------------------
-- Options
-- ---------------------------------------------------------------------------

def configureRules : List OptionRule :=
  [⟨"duration", some 'd', true⟩, ⟨"say", some 's', true⟩, ⟨"say-data", none, true⟩,
    ⟨"merge", none, false⟩, ⟨"priority", some 'p', true⟩, ⟨"say-start", none, false⟩,
    ⟨"no-say-end", none, false⟩, ⟨"no-end-chime", none, false⟩, ⟨"auto-restart", none, true⟩,
    ⟨"no-pause", none, false⟩]

def nameRule : OptionRule :=
  ⟨"name", some 'n', true⟩

def readOption (given : Given) (long : String) (read? : String → Option α) : Option (Option α) :=
  match given.value? long with
  | none => some none
  | some text => (read? text).map some

def overrides? (given : Given) : Option Overrides := do
  let priority ← readOption given "priority" fun text => (Priority.ofText text).toOption
  let autoRestart ← readOption given "auto-restart" fun text =>
    Text.readSignedNumeral Text.word64 text.toList
  let sayFile ← readOption given "say-data" fun path => if path = "" then none else some path
  some
    { duration := given.value? "duration"
      say := given.value? "say"
      sayFile
      merge := given.has "merge"
      priority
      sayStart := given.has "say-start"
      noSayEnd := given.has "no-say-end"
      noEndChime := given.has "no-end-chime"
      autoRestart
      noPause := given.has "no-pause" }

-- ---------------------------------------------------------------------------
-- Commands from words
-- ---------------------------------------------------------------------------

def plain (command : Command) (words : List String) : Option Command :=
  (OptionRule.read [] [] words).map fun _ => command

def flagged (long : String) (command : Bool → Command) (words : List String) : Option Command :=
  (OptionRule.read [⟨long, none, false⟩] [] words).map fun given => command (given.has long)

def named (command : String → Command) (words : List String) : Option Command := do
  let given ← OptionRule.read [nameRule] [] words
  let name ← given.value? "name"
  some (command name)

def ofName? (name : String) (words : List String) : Option Command :=
  match name with
  | "configure" =>
    (OptionRule.read configureRules [] words).bind fun given =>
      (overrides? given).map .configure
  | "start" => plain .start words
  | "pause" => plain .pause words
  | "resume" => plain .resume words
  | "stop" => flagged "silent" .stop words
  | "reset" => flagged "force" .reset words
  | "restart" => plain .restart words
  | "status" => plain .status words
  | "preview" => plain .preview words
  | "save-preset" => named .savePreset words
  | "load-preset" => named .loadPreset words
  | "delete-preset" => named .deletePreset words
  | "rename-preset" => do
    let given ← OptionRule.read [nameRule, ⟨"to", some 't', true⟩] [] words
    let old ← given.value? "name"
    let new ← given.value? "to"
    some (.renamePreset old new)
  | "presets" => plain .presets words
  | "config" => plain .config words
  | "exit" => plain .exit words
  | _ => none

end Command

inductive Request where
  /-- Nothing: there are no words. -/
  | nothing
  | command (command : Command)
  /-- Words that are no command with its options. -/
  | misuse
  | badQuoting
  deriving DecidableEq, Repr

def Request.ofWords : List String → Request
  | [] | ["--"] => .nothing
  | name :: words =>
    match Command.ofName? name words with
    | some c => .command c
    | none => .misuse

def Request.ofLine (line : String) : Request :=
  match Text.shellWords line with
  | some words => .ofWords words
  | none => .badQuoting

end SpokenCountdown.Console
