import SpokenCountdown.Countdown.Percent
import SpokenCountdown.Countdown.State

/-!
# The countdown

A countdown has no session, or a session and the progress of its run. Its
operations never wait: where something has to be spoken or played first, they
say so, and the caller comes back with `beginRunning`, `advanceEnding` or
`autoRestart`. Instants are microseconds on any clock, spans milliseconds.
-/

namespace SpokenCountdown

inductive Ending where
  | speaking
  | chiming
  deriving DecidableEq, Repr

/-- Progress of a session. While it runs, `anchor` is the instant up to which
time has been counted. -/
inductive Run where
  | ready
  | starting
  | running (remaining : Nat) (queue : Queue) (anchor : Nat)
  | paused (remaining : Nat) (queue : Queue)
  | ending (remaining : Nat) (phase : Ending)
  | ended (remaining : Nat)
  deriving DecidableEq, Repr

inductive Countdown where
  | unset
  | loaded (session : Session) (run : Run)
  deriving DecidableEq, Repr

namespace Run

def state : Run → Countdown.State
  | .ready => .ready
  | .starting => .starting
  | .running .. => .running
  | .paused .. => .paused
  | .ending .. => .ending
  | .ended .. => .ended

def remaining (total : Nat) : Run → Nat
  | .ready | .starting => total
  | .running remaining .. | .paused remaining _ | .ending remaining _ | .ended remaining => remaining

def queue (announcements : List Announcement) : Run → Queue
  | .ready | .starting => announcements
  | .running _ queue _ | .paused _ queue => queue
  | .ending .. | .ended .. => []

def anchor? : Run → Option Nat
  | .running _ _ anchor => some anchor
  | _ => none

def ending? : Run → Option Ending
  | .ending _ phase => some phase
  | _ => none

end Run

namespace Countdown

-- ---------------------------------------------------------------------------
-- Views
-- ---------------------------------------------------------------------------

def session? : Countdown → Option Session
  | .unset => none
  | .loaded session _ => some session

def state : Countdown → State
  | .unset => .unset
  | .loaded _ run => run.state

def total : Countdown → Nat
  | .unset => 0
  | .loaded session _ => session.total

def remaining : Countdown → Nat
  | .unset => 0
  | .loaded session run => run.remaining session.total

def queue : Countdown → Queue
  | .unset => []
  | .loaded session run => run.queue session.announcements

def anchor? : Countdown → Option Nat
  | .unset => none
  | .loaded _ run => run.anchor?

def ending? : Countdown → Option Ending
  | .unset => none
  | .loaded _ run => run.ending?

def percentLeft (c : Countdown) : Binary :=
  percent c.remaining c.total

-- ---------------------------------------------------------------------------
-- Steps
-- ---------------------------------------------------------------------------

structure Step (α : Type) where
  countdown : Countdown
  changes : List Change
  value : α
  deriving DecidableEq, Repr

def visit (c : Countdown) (stops : List Countdown) (value : α) : Step α where
  countdown := stops.getLast?.getD c
  changes := changesAlong c.state (stops.map state)
  value := value

def refusal (c : Countdown) (action : Action) : Refusal :=
  match c.state with
  | .unset => .notConfigured
  | state => .wrongState action state

def refuse (c : Countdown) (action : Action) : Step (Except Refusal α) :=
  c.visit [] (.error (c.refusal action))

inductive StartPlan where
  /-- The message is to be spoken before `beginRunning`. -/
  | speak (message : String)
  | running
  deriving DecidableEq, Repr

inductive EndStep where
  /-- The message is to be spoken before `advanceEnding`. -/
  | speak (message : String)
  /-- The chime is to be played before `advanceEnding`. -/
  | chime
  /-- The countdown has ended; after the delay, if any, comes `autoRestart`. -/
  | done (autoRestart : Option Nat)
  deriving DecidableEq, Repr

inductive TickOutcome where
  | idle
  | announce (announcement : Announcement)
  | finished (step : EndStep)
  deriving DecidableEq, Repr

/-- Counts the whole milliseconds since the anchor, which moves on by what was
counted: a fraction of a millisecond is left for the next time. -/
def elapse (remaining anchor now : Nat) : Nat × Nat :=
  let elapsed := (now - anchor) / 1000
  (remaining - elapsed, anchor + elapsed * 1000)

end Countdown

namespace Session

open Countdown

def startedAt (session : Session) (now : Nat) : Run :=
  .running session.total session.announcements now

def launch (session : Session) (now : Nat) : List Countdown × StartPlan :=
  if session.sayStart then
    ([.loaded session .starting], .speak session.startMessage)
  else
    ([.loaded session .starting, .loaded session (session.startedAt now)], .running)

def afterEndMessage (session : Session) (remaining : Nat) : Run × EndStep :=
  if session.endChime then (.ending remaining .chiming, .chime)
  else (.ended remaining, .done session.autoRestart)

def finish (session : Session) (remaining : Nat) : Run × EndStep :=
  if session.sayEnd then (.ending remaining .speaking, .speak session.endMessage)
  else session.afterEndMessage remaining

end Session

namespace Countdown

-- ---------------------------------------------------------------------------
-- Operations
-- ---------------------------------------------------------------------------

/-- Loads a session. Settings that make none unload the countdown. -/
def configure (c : Countdown) (settings : Settings) : Step (Except Refusal Unit) :=
  match c.state with
  | .unset | .ready | .paused | .ended =>
    match settings.session with
    | .ok session => c.visit [.loaded session .ready] (.ok ())
    | .error cause => c.visit [.unset] (.error (.badSettings cause))
  | _ => c.refuse .configure

def start (c : Countdown) (now : Nat) : Step (Except Refusal StartPlan) :=
  match c with
  | .loaded session .ready =>
    let (stops, plan) := session.launch now
    c.visit stops (.ok plan)
  | _ => c.refuse .start

def beginRunning (c : Countdown) (now : Nat) : Step (Except Refusal Unit) :=
  match c with
  | .loaded session .starting => c.visit [.loaded session (session.startedAt now)] (.ok ())
  | _ => c.refuse .start

/-- Counts the time up to `now`; at most one announcement is handed out. -/
def tick (c : Countdown) (now : Nat) : Step TickOutcome :=
  match c with
  | .loaded session (.running remaining queue anchor) =>
    let (remaining, anchor) := elapse remaining anchor now
    let stay (queue : Queue) (outcome : TickOutcome) :=
      c.visit [.loaded session (.running remaining queue anchor)] outcome
    match planTick remaining queue.head? session.earlyFire with
    | .idle => stay queue .idle
    | .announce =>
      match Queue.popDue queue remaining session.earlyFire with
      | (some a, rest) => stay rest (.announce a)
      | (none, rest) => stay rest .idle
    | .finish =>
      let (run, step) := session.finish remaining
      c.visit [.loaded session run] (.finished step)
  | _ => c.visit [] .idle

/-- The time up to `now` still counts. -/
def pause (c : Countdown) (now : Nat) : Step (Except Refusal Unit) :=
  match c with
  | .loaded session (.running remaining queue anchor) =>
    if session.allowPause then
      c.visit [.loaded session (.paused (elapse remaining anchor now).1 queue)] (.ok ())
    else
      c.visit [] (.error .pauseDisabled)
  | _ => c.refuse .pause

def resume (c : Countdown) (now : Nat) : Step (Except Refusal Unit) :=
  match c with
  | .loaded session (.paused remaining queue) =>
    c.visit [.loaded session (.running remaining queue now)] (.ok ())
  | _ => c.refuse .resume

/-- Ends early. A silent stop skips the ending sequence and starts no new run. -/
def stop (c : Countdown) (silent : Bool) : Step (Except Refusal EndStep) :=
  let ended (session : Session) (remaining : Nat) : Step (Except Refusal EndStep) :=
    let (run, step) := if silent then (.ended remaining, .done none) else session.finish remaining
    c.visit [.loaded session run] (.ok step)
  match c with
  | .loaded session (.running remaining _ _) => ended session remaining
  | .loaded session (.paused remaining _) => ended session remaining
  | _ => c.refuse .stop

def advanceEnding (c : Countdown) : Step (Option EndStep) :=
  match c with
  | .loaded session (.ending remaining .speaking) =>
    let (run, step) := session.afterEndMessage remaining
    c.visit [.loaded session run] (some step)
  | .loaded session (.ending remaining .chiming) =>
    c.visit [.loaded session (.ended remaining)] (some (.done session.autoRestart))
  | _ => c.visit [] none

/-- Back to ready. Unless forced only from a paused or ended countdown. -/
def reset (c : Countdown) (force : Bool) : Step (Except Refusal Unit) :=
  match c with
  | .loaded session run =>
    if force || run.state = .paused || run.state = .ended then
      c.visit [.loaded session .ready] (.ok ())
    else
      c.refuse .reset
  | .unset => c.refuse .reset

def relaunch (c : Countdown) (session : Session) (now : Nat) : Step (Except Refusal StartPlan) :=
  let (stops, plan) := session.launch now
  c.visit (.loaded session .ready :: stops) (.ok plan)

def restart (c : Countdown) (now : Nat) : Step (Except Refusal StartPlan) :=
  match c with
  | .loaded session (.paused _ _) => c.relaunch session now
  | .loaded session (.ended _) => c.relaunch session now
  | _ => c.refuse .restart

def autoRestart (c : Countdown) (now : Nat) : Step (Except Refusal StartPlan) :=
  match c with
  | .loaded session (.ended _) => c.relaunch session now
  | _ => c.refuse .autoRestart

def unload (c : Countdown) : Step Unit :=
  c.visit [.unset] ()

end Countdown

end SpokenCountdown
