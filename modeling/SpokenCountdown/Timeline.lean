import SpokenCountdown.Countdown

/-!
# The timeline

A countdown on a clock of whole milliseconds. Three things move it: commands,
ticks while it runs, and the end of the one wait it may have (for the start or
end message, the chime, or the delay before it starts again). What is spoken
and which changes of state occur goes into a journal.
-/

namespace SpokenCountdown

inductive Speech where
  | immediate
  /-- Not before it is released. -/
  | held
  | after (ms : Nat)
  deriving DecidableEq, Repr

structure Gateways where
  /-- How long an utterance takes, from the time it begins and its text. -/
  speech : Nat → String → Speech := fun _ _ => .immediate
  /-- Length of the chime in milliseconds. -/
  chime : Nat := 0
  /-- Whether calls to the gateways go into the journal. -/
  recorded : Bool := true

inductive WaitKind where
  | startMessage
  | endMessage
  | chime
  | autoRestart
  deriving DecidableEq, Repr

structure Wait where
  kind : WaitKind
  endsAt : Nat
  /-- An utterance that a release ends at once. -/
  held : Bool := false
  deriving DecidableEq, Repr

inductive Entry where
  | change (change : Countdown.Change)
  | say (time : Nat) (text : String) (rate : Binary)
  | chime (time : Nat)
  deriving DecidableEq, Repr

structure Timeline where
  gateways : Gateways := {}
  /-- Milliseconds since the timeline began. -/
  now : Nat := 0
  countdown : Countdown := .unset
  wait : Option Wait := none
  /-- When the next tick comes, while the countdown runs. -/
  nextTick : Nat := 0
  /-- Whether a command has been answered. -/
  answered : Bool := false
  /-- A closed timeline refuses every command and has no more events. -/
  closed : Bool := false
  /-- What happened, the latest first. -/
  journal : List Entry := []

structure Snapshot where
  state : Countdown.State
  total : Nat
  remaining : Nat
  percent : Binary
  label : String
  next : Option Announcement
  pending : Nat
  deriving DecidableEq, Repr

inductive Command where
  | configure (settings : Settings)
  | start
  | pause
  | resume
  | stop (silent : Bool)
  | reset (force : Bool)
  | restart
  deriving DecidableEq, Repr

inductive Event where
  | tick
  | waitOver (kind : WaitKind)
  deriving DecidableEq, Repr

namespace Timeline

/-- Before the first answer there is no label yet. -/
def snapshot (t : Timeline) : Snapshot where
  state := t.countdown.state
  total := t.countdown.total
  remaining := t.countdown.remaining
  percent := t.countdown.percentLeft
  label := if t.answered then Duration.clockLabel t.countdown.remaining else ""
  next := t.countdown.queue.head?
  pending := t.countdown.queue.length

/-- The present in microseconds, the unit of the countdown's instants. -/
def instant (t : Timeline) : Nat :=
  t.now * 1000

def period (t : Timeline) : Nat :=
  match t.countdown with
  | .loaded session _ => session.tick
  | .unset => 50

def record (t : Timeline) (entry : Entry) : Timeline :=
  { t with journal := entry :: t.journal }

def moved (t : Timeline) (step : Countdown.Step α) : Timeline :=
  { t with
    countdown := step.countdown
    journal := (step.changes.map Entry.change).reverse ++ t.journal }

def say (t : Timeline) (text : String) (rate : Binary) : Timeline :=
  if t.gateways.recorded then t.record (.say t.now text rate) else t

def playChime (t : Timeline) : Timeline :=
  if t.gateways.recorded then t.record (.chime t.now) else t

def restartTicks (t : Timeline) : Timeline :=
  { t with nextTick := t.now + t.period }

/-- Speaks a message and waits for its end, not longer than the time limit. -/
def sayAndWait (t : Timeline) (kind : WaitKind) (text : String) : Timeline :=
  let limit := t.countdown.session?.elim 15000 (·.speechTimeout)
  let wait : Wait := match t.gateways.speech t.now text with
    | .immediate => ⟨kind, t.now, false⟩
    | .held => ⟨kind, t.now + limit, true⟩
    | .after ms => ⟨kind, t.now + min ms limit, false⟩
  { t.say text Rate.normal with wait := some wait }

def followStart (t : Timeline) : Countdown.StartPlan → Timeline
  | .speak message => t.sayAndWait .startMessage message
  | .running => t.restartTicks

def followEnd (t : Timeline) : Countdown.EndStep → Timeline
  | .speak message => t.sayAndWait .endMessage message
  | .chime => { t.playChime with wait := some ⟨.chime, t.now + t.gateways.chime, false⟩ }
  | .done (some delay) => { t with wait := some ⟨.autoRestart, t.now + delay, false⟩ }
  | .done none => t

-- ---------------------------------------------------------------------------
-- Commands
-- ---------------------------------------------------------------------------

/-- A step that was refused changes nothing else; one that was not ends the
wait, and then its answer is followed. -/
def apply (t : Timeline) (step : Countdown.Step (Except Countdown.Refusal α))
    (follow : Timeline → α → Timeline) : Timeline × Except Countdown.Refusal Countdown.State :=
  let moved := t.moved step
  match step.value with
  | .error refusal => (moved, .error refusal)
  | .ok value =>
    let after := follow { moved with wait := none } value
    (after, .ok after.countdown.state)

/-- Every command, refused or not, cancels the delay before an automatic restart. -/
def cancelAutoRestart (t : Timeline) : Timeline :=
  match t.wait with
  | some wait => if wait.kind = .autoRestart then { t with wait := none } else t
  | none => t

def perform (t : Timeline) (command : Command) :
    Timeline × Except Countdown.Refusal Countdown.State :=
  if t.closed then (t, .error .closed)
  else
    let t := { t.cancelAutoRestart with answered := true }
    let c := t.countdown
    match command with
    | .configure settings => t.apply (c.configure settings) fun t _ => t
    | .start => t.apply (c.start t.instant) followStart
    | .pause => t.apply (c.pause t.instant) fun t _ => t
    | .resume => t.apply (c.resume t.instant) fun t _ => t.restartTicks
    | .stop silent => t.apply (c.stop silent) followEnd
    | .reset force => t.apply (c.reset force) fun t _ => t
    | .restart => t.apply (c.restart t.instant) followStart

-- ---------------------------------------------------------------------------
-- Events
-- ---------------------------------------------------------------------------

def onTick (t : Timeline) : Timeline :=
  let step := t.countdown.tick t.instant
  let t := (t.moved step).restartTicks
  match step.value with
  | .idle => t
  | .announce a => t.say a.message a.rate
  | .finished next => t.followEnd next

def onWaitOver (t : Timeline) (kind : WaitKind) : Timeline :=
  let t := { t with wait := none }
  match kind with
  | .startMessage =>
    let step := t.countdown.beginRunning t.instant
    match step.value with
    | .ok _ => (t.moved step).restartTicks
    | .error _ => t.moved step
  | .endMessage | .chime =>
    let step := t.countdown.advanceEnding
    match step.value with
    | some next => (t.moved step).followEnd next
    | none => t.moved step
  | .autoRestart =>
    let step := t.countdown.autoRestart t.instant
    match step.value with
    | .ok plan => (t.moved step).followStart plan
    | .error _ => t.moved step

/-- The next event and its time; a tick comes before the end of a wait at the same time. -/
def upcoming (t : Timeline) : Option (Nat × Event) :=
  if t.closed then none
  else
    let tick := if t.countdown.state = .running then some (t.nextTick, Event.tick) else none
    let waitOver := t.wait.map fun w => (w.endsAt, Event.waitOver w.kind)
    match tick, waitOver with
    | some a, some b => some (if b.1 < a.1 then b else a)
    | some a, none => some a
    | none, b => b

def handle (t : Timeline) (time : Nat) (event : Event) : Timeline :=
  let t := { t with now := max t.now time }
  match event with
  | .tick => t.onTick
  | .waitOver kind => t.onWaitOver kind

def run (horizon : Nat) : Nat → Timeline → Timeline
  | 0, t => t
  | fuel + 1, t =>
    match t.upcoming with
    | some (time, event) =>
      if time ≤ horizon then run horizon fuel (t.handle time event) else t
    | none => t

/-- At one moment at most five events follow each other: a tick that ends the
run, the ends of the end message, the chime, the delay and the start message.
That bounds the events up to a horizon. -/
def eventBound (t : Timeline) (horizon : Nat) : Nat :=
  5 * (horizon + 1 - t.now)

def runTo (t : Timeline) (horizon : Nat) : Timeline :=
  { run horizon (t.eventBound horizon) t with now := max t.now horizon }

def settle (t : Timeline) : Timeline :=
  t.runTo t.now

def sleep (t : Timeline) (ms : Nat) : Timeline :=
  t.runTo (t.now + ms)

def release (t : Timeline) : Timeline :=
  match t.wait with
  | some wait => if wait.held then { t with wait := some { wait with endsAt := t.now } } else t
  | none => t

def drop (t : Timeline) : Timeline :=
  if t.closed then t
  else { t.moved t.countdown.unload with wait := none, closed := true }

def abort (t : Timeline) : Timeline :=
  { t with closed := true }

/-- The journal in order of time, and the timeline with an empty one. -/
def takeJournal (t : Timeline) : List Entry × Timeline :=
  (t.journal.reverse, { t with journal := [] })

end Timeline

end SpokenCountdown
