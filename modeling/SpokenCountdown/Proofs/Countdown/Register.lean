import SpokenCountdown.Proofs.Countdown.Operation

/-!
# The countdown as a register

The same operations on one flat record, field by field. Such a record can hold
combinations that mean nothing, a state without its session or an anchor outside
of a run, so its operations need fallbacks; each fallback that is taken leaves
its name behind. `Proofs/Countdown/Agreement` shows that none ever is.
-/

namespace SpokenCountdown

open Countdown

inductive Phase where
  | idle
  /-- The ending has begun and nothing is asked for yet. -/
  | begun
  | speaking
  | chiming
  deriving DecidableEq, Repr

inductive Fallback where
  | startUnloaded
  | tickUnloaded
  | pauseUnloaded
  | advanceUnloaded
  | finishWithoutStep
  | reloadUnloaded
  deriving DecidableEq, Repr

structure Register where
  session? : Option Session := none
  state : Countdown.State := .unset
  remaining : Nat := 0
  percent : Binary := Binary.ofNat .double 0
  queue : Queue := []
  anchor? : Option Nat := none
  phase : Phase := .idle
  /-- Changes reported so far, the oldest first. -/
  changes : List Change := []
  /-- Fallbacks taken so far, the oldest first. -/
  fallbacks : List Fallback := []
  deriving DecidableEq, Repr

namespace Register

def total (r : Register) : Nat :=
  r.session?.elim 0 (·.total)

def announcements (r : Register) : List Announcement :=
  r.session?.elim [] (·.announcements)

def fall (r : Register) (fallback : Fallback) : Register :=
  { r with fallbacks := r.fallbacks ++ [fallback] }

def refusal (r : Register) (action : Action) : Refusal :=
  if r.state = .unset then .notConfigured else .wrongState action r.state

/-- Staying in a state is no change. -/
def goTo (r : Register) (next : Countdown.State) : Register :=
  if r.state = next then r
  else { r with state := next, changes := r.changes ++ [⟨r.state, next⟩] }

def fresh (r : Register) (session : Session) : Register :=
  { r with
    remaining := session.total
    percent := Binary.ofNat .double 100
    queue := session.announcements
    anchor? := none
    phase := .idle }

def count (r : Register) (now total : Nat) : Register :=
  match r.anchor? with
  | none => r
  | some anchor =>
    let (remaining, anchor) := elapse r.remaining anchor now
    { r with
      remaining := remaining
      anchor? := some anchor
      percent := Countdown.percent remaining total }

-- ---------------------------------------------------------------------------
-- Ending
-- ---------------------------------------------------------------------------

def complete (r : Register) (mayRestart : Bool) : Register × EndStep :=
  let r := { r with phase := .idle }.goTo .ended
  (r, .done (if mayRestart then r.session?.bind (·.autoRestart) else none))

def advanceEnding (r : Register) : Register × Option EndStep :=
  if r.state ≠ .ending then (r, none)
  else match r.session? with
    | none => (r.fall .advanceUnloaded, none)
    | some session =>
      if (r.phase = .idle ∨ r.phase = .begun) ∧ session.sayEnd = true then
        ({ r with phase := .speaking }, some (.speak session.endMessage))
      else if (r.phase = .idle ∨ r.phase = .begun ∨ r.phase = .speaking) ∧
          session.endChime = true then
        ({ r with phase := .chiming }, some .chime)
      else
        let (r, step) := r.complete true
        (r, some step)

def finish (r : Register) (silent : Bool) : Register × EndStep :=
  let r := { r with queue := [], anchor? := none }
  let hasEnding := r.session?.any fun session => session.sayEnd || session.endChime
  if silent || !hasEnding then r.complete (!silent)
  else
    match ({ r with phase := .begun }.goTo .ending).advanceEnding with
    | (r, some step) => (r, step)
    | (r, none) => (r.fall .finishWithoutStep, .done none)

-- ---------------------------------------------------------------------------
-- Loading and starting
-- ---------------------------------------------------------------------------

def unload (r : Register) : Register :=
  { r with
    session? := none
    remaining := 0
    percent := Binary.ofNat .double 0
    queue := []
    anchor? := none
    phase := .idle }.goTo .unset

def configure (r : Register) (settings : Settings) : Register × Except Refusal Unit :=
  if r.state = .unset ∨ r.state = .ready ∨ r.state = .paused ∨ r.state = .ended then
    match settings.session with
    | .ok session => ({ r.fresh session with session? := some session }.goTo .ready, .ok ())
    | .error cause => (r.unload, .error (.badSettings cause))
  else (r, .error (r.refusal .configure))

def beginRunning (r : Register) (now : Nat) : Register × Except Refusal Unit :=
  if r.state ≠ .starting then (r, .error (r.refusal .start))
  else ({ r with anchor? := some now }.goTo .running, .ok ())

def start (r : Register) (now : Nat) : Register × Except Refusal StartPlan :=
  if r.state ≠ .ready then (r, .error (r.refusal .start))
  else match r.session? with
    | none => (r.fall .startUnloaded, .error .notConfigured)
    | some session =>
      let r := r.goTo .starting
      if session.sayStart then (r, .ok (.speak session.startMessage))
      else
        let (r, begun) := r.beginRunning now
        (r, begun.map fun _ => .running)

def reload (r : Register) : Register :=
  match r.session? with
  | none => r.fall .reloadUnloaded
  | some session => (r.fresh session).goTo .ready

def reset (r : Register) (force : Bool) : Register × Except Refusal Unit :=
  let allowed := match r.state with
    | .unset => false
    | .paused | .ended => true
    | _ => force
  if allowed then (r.reload, .ok ()) else (r, .error (r.refusal .reset))

def restart (r : Register) (now : Nat) : Register × Except Refusal StartPlan :=
  if r.state = .paused ∨ r.state = .ended then r.reload.start now
  else (r, .error (r.refusal .restart))

def autoRestart (r : Register) (now : Nat) : Register × Except Refusal StartPlan :=
  if r.state = .ended then r.reload.start now
  else (r, .error (r.refusal .autoRestart))

-- ---------------------------------------------------------------------------
-- Running
-- ---------------------------------------------------------------------------

def tick (r : Register) (now : Nat) : Register × TickOutcome :=
  if r.state ≠ .running then (r, .idle)
  else match r.session? with
    | none => (r.fall .tickUnloaded, .idle)
    | some session =>
      let r := r.count now session.total
      match planTick r.remaining r.queue.head? session.earlyFire with
      | .idle => (r, .idle)
      | .announce =>
        match Queue.popDue r.queue r.remaining session.earlyFire with
        | (some a, rest) => ({ r with queue := rest }, .announce a)
        | (none, rest) => ({ r with queue := rest }, .idle)
      | .finish =>
        let (r, step) := r.finish false
        (r, .finished step)

def pause (r : Register) (now : Nat) : Register × Except Refusal Unit :=
  if r.state ≠ .running then (r, .error (r.refusal .pause))
  else match r.session? with
    | none => (r.fall .pauseUnloaded, .error .notConfigured)
    | some session =>
      if session.allowPause then
        ({ r.count now session.total with anchor? := none }.goTo .paused, .ok ())
      else (r, .error .pauseDisabled)

def resume (r : Register) (now : Nat) : Register × Except Refusal Unit :=
  if r.state ≠ .paused then (r, .error (r.refusal .resume))
  else ({ r with anchor? := some now }.goTo .running, .ok ())

def stop (r : Register) (silent : Bool) : Register × Except Refusal EndStep :=
  if r.state = .running ∨ r.state = .paused then
    let (r, step) := r.finish silent
    (r, .ok step)
  else (r, .error (r.refusal .stop))

-- ---------------------------------------------------------------------------
-- Histories
-- ---------------------------------------------------------------------------

def perform (r : Register) : Operation → Register × Answer
  | .configure settings => (r.configure settings).map id (·.map fun _ => .done)
  | .start now => (r.start now).map id (·.map .started)
  | .beginRunning now => (r.beginRunning now).map id (·.map fun _ => .done)
  | .tick now => (r.tick now).map id fun outcome => .ok (.ticked outcome)
  | .pause now => (r.pause now).map id (·.map fun _ => .done)
  | .resume now => (r.resume now).map id (·.map fun _ => .done)
  | .stop silent => (r.stop silent).map id (·.map .stopped)
  | .advanceEnding => r.advanceEnding.map id fun step => .ok (.advanced step)
  | .reset force => (r.reset force).map id (·.map fun _ => .done)
  | .restart now => (r.restart now).map id (·.map .started)
  | .autoRestart now => (r.autoRestart now).map id (·.map .started)
  | .unload => (r.unload, .ok .done)

def after (r : Register) (history : List Operation) : Register :=
  history.foldl (fun r op => (r.perform op).1) r

end Register

end SpokenCountdown
