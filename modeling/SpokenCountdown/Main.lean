import SpokenCountdown.Console

/-!
# The program

Reads lines from the terminal and answers them, while the timeline follows the
clock. There is no voice here: what is to be said is printed.
-/

namespace SpokenCountdown.Program

def preferencesPath? : IO (Option (String × String)) := do
  let folder (base : String) := base ++ "/spoken-countdown"
  let place (base : String) := (folder base, folder base ++ "/config.toml")
  match ← IO.getEnv "XDG_CONFIG_HOME" with
  | some base => return some (place base)
  | none => return (← IO.getEnv "HOME").map fun home => place (home ++ "/.config")

def readFile (path : String) : IO PreferencesFile := do
  try
    return .text (← IO.FS.readFile path)
  catch
    | .noFileOrDirectory .. => return .absent
    | _ => return .folder

def filesFor (text : String) : IO (String → Option String) := do
  match Console.Request.ofLine text with
  | .command (.configure overrides) =>
    match overrides.sayFile with
    | some path =>
      match ← readFile path with
      | .text content => return fun _ => some content
      | _ => return fun _ => none
    | none => return fun _ => none
  | _ => return fun _ => none

def write (folder : String) (before : PreferencesFile) (console : Console) : IO Unit := do
  match console.storage with
  | some storage =>
    match storage.file with
    | .text content =>
      if storage.file ≠ before then
        IO.FS.createDirAll folder
        IO.FS.writeFile storage.path content
    | _ => return
  | none => return

/-- Answers a line. If the preferences cannot be written, the line is answered
once more with a file that refuses them. -/
def respond (folder : String) (console : Console) (text : String) :
    IO (Console × Console.Reply) := do
  let files ← filesFor text
  let (next, reply) := console.respond files text
  match console.storage with
  | none => return (next, reply)
  | some storage =>
    try
      write folder storage.file next
      return (next, reply)
    catch _ =>
      let blocked := { console with storage := some { storage with file := .folder } }
      let (next, reply) := blocked.respond files text
      return ({ next with storage := some storage }, reply)

def showEntry : Entry → IO Unit
  | .change c => IO.println s!"\n[{c.previous.name} -> {c.current.name}]"
  | .say _ text _ => IO.println s!"\n{text}"
  | .chime _ => IO.print "\x07"

def showEntries (console : Console) : IO Console := do
  let (entries, timeline) := console.timeline.takeJournal
  for entry in entries do
    showEntry entry
  (← IO.getStdout).flush
  return { console with timeline }

def catchUp (start : Nat) (console : Console) : IO Console := do
  let now ← IO.monoMsNow
  showEntries { console with timeline := console.timeline.runTo (now - start) }

partial def await (start : Nat) (console : Console) (line : Task (Except IO.Error String)) :
    IO (Console × String) := do
  let console ← catchUp start console
  if ← IO.hasFinished line then
    return (console, ← IO.ofExcept line.get)
  else
    IO.sleep 20
    await start console line

def showReply : Console.Reply → IO Bool
  | .done output => do IO.print output; return true
  | .quit output => do IO.print output; return false
  | .failed message => do IO.println message; return true
  | .misuse => do IO.println "error: not a command with its options"; return true

/-- Answers lines until the last one; the end of the input asks to leave as well. -/
partial def loop (folder : String) (start : Nat) (console : Console) : IO Unit := do
  IO.print "timer> "
  (← IO.getStdout).flush
  let stdin ← IO.getStdin
  let (console, text) ← await start console (← IO.asTask stdin.getLine .dedicated)
  let text := if text.isEmpty then "exit" else Text.trim text
  if text.isEmpty then loop folder start console
  else
    let (console, reply) ← respond folder console text
    let goesOn ← showReply reply
    let console ← showEntries { console with timeline := console.timeline.settle }
    if goesOn then loop folder start console

def gateways (audio : AudioSettings) : Gateways where
  chime := audio.chimeLength
  recorded := audio.enabled

def run : IO Unit := do
  let start ← IO.monoMsNow
  match ← preferencesPath? with
  | none => loop "" start (.ofPreferences {} none (gateways {}))
  | some (folder, path) =>
    let file ← readFile path
    let console := Console.loadOrDefault ⟨path, file⟩ gateways
    try
      write folder file console
    catch _ => pure ()
    loop folder start console

end SpokenCountdown.Program

def main : IO Unit :=
  SpokenCountdown.Program.run
