import SpokenCountdown.Session

/-!
# States, changes and refusals

The life of a countdown as others see it, and the reasons for which a request
is refused.
-/

namespace SpokenCountdown

namespace Countdown

inductive State where
  /-- No session is loaded. -/
  | unset
  /-- Loaded, with the whole time remaining. -/
  | ready
  /-- The start message is being spoken. -/
  | starting
  | running
  | paused
  /-- The end message is being spoken or the chime plays. -/
  | ending
  | ended
  deriving DecidableEq, Repr

def State.name : State → String
  | .unset => "unset"
  | .ready => "ready"
  | .starting => "starting"
  | .running => "running"
  | .paused => "paused"
  | .ending => "ending"
  | .ended => "ended"

structure Change where
  previous : State
  current : State
  deriving DecidableEq, Repr

/-- The changes along a path of states; staying in a state is none. -/
def changesAlong : State → List State → List Change
  | _, [] => []
  | previous, current :: rest =>
    if previous = current then changesAlong current rest
    else ⟨previous, current⟩ :: changesAlong current rest

inductive Action where
  | configure
  | start
  | pause
  | resume
  | stop
  | reset
  | restart
  | autoRestart
  deriving DecidableEq, Repr

def Action.name : Action → String
  | .configure => "configure"
  | .start => "start"
  | .pause => "pause"
  | .resume => "resume"
  | .stop => "stop"
  | .reset => "reset"
  | .restart => "restart"
  | .autoRestart => "auto-restart"

inductive Refusal where
  | wrongState (action : Action) (state : State)
  | pauseDisabled
  | notConfigured
  | badSettings (cause : SettingsError)
  /-- Nobody is left to answer. -/
  | closed
  deriving DecidableEq, Repr

def Refusal.message : Refusal → String
  | .wrongState action state => s!"cannot {action.name} while {state.name}"
  | .pauseDisabled => "pausing is disabled for this timer"
  | .notConfigured => "timer is not configured"
  | .badSettings cause => s!"invalid timer configuration: {cause.message}"
  | .closed => "timer service has shut down"

end Countdown

end SpokenCountdown
