import SpokenCountdown.Proofs.Countdown.Operation
import SpokenCountdown.Timeline

/-!
# What can happen to a timeline

A history of a timeline is a list of occurrences: commands, ticks, ends of
waits, time going by, in any order and at any time, also earlier or later than
they are due. So what holds of every history holds of the runs that handle each
event when it is due (`runTo_after`), and of every other schedule.

An occurrence asks the countdown for one operation at most, and what the
timeline then does depends on the answer alone: `happen_turn`.
-/

namespace SpokenCountdown

open Countdown

inductive Occurrence where
  | command (command : Command)
  | lapse (ms : Nat)
  | tick
  | waitOver
  | release
  | drop
  | abort
  deriving DecidableEq, Repr

def Command.operation (now : Nat) : Command → Operation
  | .configure settings => .configure settings
  | .start => .start now
  | .pause => .pause now
  | .resume => .resume now
  | .stop silent => .stop silent
  | .reset force => .reset force
  | .restart => .restart now

def WaitKind.operation (now : Nat) : WaitKind → Operation
  | .startMessage => .beginRunning now
  | .endMessage | .chime => .advanceEnding
  | .autoRestart => .autoRestart now

def Event.occurrence : Event → Occurrence
  | .tick => .tick
  | .waitOver _ => .waitOver

namespace Timeline

/-- A tick counts only while the countdown runs, and a wait must be there to end. -/
def happen (t : Timeline) : Occurrence → Timeline
  | .command command => (t.perform command).1
  | .lapse ms => { t with now := t.now + ms }
  | .tick => if t.closed = false ∧ t.countdown.state = .running then t.onTick else t
  | .waitOver =>
    match t.wait with
    | some wait => if t.closed then t else t.onWaitOver wait.kind
    | none => t
  | .release => t.release
  | .drop => t.drop
  | .abort => t.abort

def after (t : Timeline) (history : List Occurrence) : Timeline :=
  history.foldl happen t

@[simp] theorem after_nil (t : Timeline) : t.after [] = t := rfl

@[simp] theorem after_cons (t : Timeline) (o : Occurrence) (rest : List Occurrence) :
    t.after (o :: rest) = (t.happen o).after rest := rfl

theorem after_append (t : Timeline) (first second : List Occurrence) :
    t.after (first ++ second) = (t.after first).after second :=
  List.foldl_append

-- ---------------------------------------------------------------------------
-- One operation of the countdown
-- ---------------------------------------------------------------------------

def respond (t : Timeline) : Answer → Timeline
  | .error _ | .ok (.ticked .idle) | .ok (.advanced none) => t
  | .ok .done => { t with wait := none }
  | .ok (.started plan) => { t with wait := none }.followStart plan
  | .ok (.ticked (.announce a)) => t.say a.message a.rate
  | .ok (.ticked (.finished step)) => t.followEnd step
  | .ok (.stopped step) | .ok (.advanced (some step)) => { t with wait := none }.followEnd step

def react (t : Timeline) (op : Operation) : Timeline :=
  let step := t.countdown.perform op
  (t.moved step).respond step.value

def addressed (t : Timeline) : Timeline :=
  { t.cancelAutoRestart with answered := true }

theorem addressed_eq (t : Timeline) :
    t.addressed = { t with wait := t.wait.filter (·.kind ≠ .autoRestart), answered := true } := by
  obtain ⟨gateways, now, countdown, wait, nextTick, answered, closed, journal⟩ := t
  cases wait with
  | none => rfl
  | some wait =>
    simp only [addressed, cancelAutoRestart]
    split <;> simp [Option.filter, *]

theorem addressed_countdown (t : Timeline) : t.addressed.countdown = t.countdown := by
  rw [addressed_eq]

theorem addressed_wait (t : Timeline) :
    t.addressed.wait = t.wait.filter (·.kind ≠ .autoRestart) := by
  rw [addressed_eq]

/-- The timeline after an operation, but for the time of the next tick. -/
def Reacts (t : Timeline) (op : Operation) (u : Timeline) : Prop :=
  ∃ next, u = { t.react op with nextTick := next }

theorem apply_reacts (t : Timeline) {op : Operation} {step : Step (Except Refusal α)}
    {reply : α → Reply} {follow : Timeline → α → Timeline}
    (hstep : t.countdown.perform op = step.answering (·.map reply))
    (hfollow : ∀ (u : Timeline) value, ∃ next, follow { u with wait := none } value =
      { u.respond (.ok (reply value)) with nextTick := next }) :
    t.Reacts op (t.apply step follow).1 := by
  simp only [Reacts, react, hstep, Step.answering, apply]
  cases step.value with
  | error refusal => exact ⟨t.nextTick, rfl⟩
  | ok value => exact hfollow (t.moved step) value

/-- A command on a timeline that is open and awaits no automatic restart. -/
def carryOut (t : Timeline) : Command → Timeline × Except Refusal State
  | .configure settings => t.apply (t.countdown.configure settings) fun t _ => t
  | .start => t.apply (t.countdown.start t.instant) followStart
  | .pause => t.apply (t.countdown.pause t.instant) fun t _ => t
  | .resume => t.apply (t.countdown.resume t.instant) fun t _ => t.restartTicks
  | .stop silent => t.apply (t.countdown.stop silent) followEnd
  | .reset force => t.apply (t.countdown.reset force) fun t _ => t
  | .restart => t.apply (t.countdown.restart t.instant) followStart

theorem perform_eq {t : Timeline} (h : t.closed = false) (command : Command) :
    t.perform command = t.addressed.carryOut command := by
  rw [perform, if_neg (ne_true_of_eq_false h)]
  cases command <;> rfl

theorem carryOut_reacts (t : Timeline) (command : Command) :
    t.Reacts (command.operation t.instant) (t.carryOut command).1 := by
  cases command with
  | configure settings => exact t.apply_reacts rfl fun u _ => ⟨u.nextTick, rfl⟩
  | start =>
    refine t.apply_reacts rfl fun u plan => ?_
    cases plan <;> exact ⟨_, rfl⟩
  | pause => exact t.apply_reacts rfl fun u _ => ⟨u.nextTick, rfl⟩
  | resume => exact t.apply_reacts rfl fun u _ => ⟨_, rfl⟩
  | stop silent => exact t.apply_reacts rfl fun u step => ⟨_, rfl⟩
  | reset force => exact t.apply_reacts rfl fun u _ => ⟨u.nextTick, rfl⟩
  | restart =>
    refine t.apply_reacts rfl fun u plan => ?_
    cases plan <;> exact ⟨_, rfl⟩

theorem say_nextTick (t : Timeline) (next : Nat) (text : String) (rate : Binary) :
    { t with nextTick := next }.say text rate = { t.say text rate with nextTick := next } := by
  unfold say
  split <;> rfl

theorem sayAndWait_nextTick (t : Timeline) (next : Nat) (kind : WaitKind) (text : String) :
    { t with nextTick := next }.sayAndWait kind text =
      { t.sayAndWait kind text with nextTick := next } := by
  unfold sayAndWait
  rw [say_nextTick]

theorem playChime_nextTick (t : Timeline) (next : Nat) :
    { t with nextTick := next }.playChime = { t.playChime with nextTick := next } := by
  unfold playChime
  split <;> rfl

theorem followEnd_nextTick (t : Timeline) (next : Nat) (step : EndStep) :
    { t with nextTick := next }.followEnd step = { t.followEnd step with nextTick := next } := by
  rcases step with message | _ | ⟨_ | delay⟩
  · exact t.sayAndWait_nextTick next .endMessage message
  · simp only [followEnd, playChime_nextTick]
  · rfl
  · rfl

theorem onTick_reacts (t : Timeline) : t.Reacts (.tick t.instant) t.onTick := by
  simp only [onTick, Reacts, react, Countdown.perform, Step.answering]
  cases (t.countdown.tick t.instant).value with
  | idle => exact ⟨_, rfl⟩
  | announce a => exact ⟨_, say_nextTick ..⟩
  | finished step => exact ⟨_, followEnd_nextTick ..⟩

theorem onWaitOver_reacts (t : Timeline) (kind : WaitKind) :
    Reacts { t with wait := none } (kind.operation t.instant) (t.onWaitOver kind) := by
  have hinstant : ({ t with wait := none } : Timeline).instant = t.instant := rfl
  cases kind with
  | startMessage =>
    simp only [onWaitOver, WaitKind.operation, Reacts, react, Countdown.perform, Step.answering,
      hinstant]
    cases (t.countdown.beginRunning t.instant).value <;> exact ⟨_, rfl⟩
  | endMessage | chime =>
    simp only [onWaitOver, WaitKind.operation, Reacts, react, Countdown.perform, Step.answering]
    cases t.countdown.advanceEnding.value <;> exact ⟨_, rfl⟩
  | autoRestart =>
    simp only [onWaitOver, WaitKind.operation, Reacts, react, Countdown.perform, Step.answering,
      hinstant]
    rcases (t.countdown.autoRestart t.instant).value with _ | (message | _) <;> exact ⟨_, rfl⟩

-- ---------------------------------------------------------------------------
-- What is left alone
-- ---------------------------------------------------------------------------

/-- What a timeline does with an answer leaves its clock, its gateways, its
countdown, and whether it is closed. -/
def setting (t : Timeline) : Nat × Gateways × Bool × Countdown :=
  (t.now, t.gateways, t.closed, t.countdown)

@[simp] theorem say_setting (t : Timeline) (text : String) (rate : Binary) :
    (t.say text rate).setting = t.setting := by
  unfold say
  split <;> rfl

@[simp] theorem playChime_setting (t : Timeline) : t.playChime.setting = t.setting := by
  unfold playChime
  split <;> rfl

@[simp] theorem followStart_setting (t : Timeline) (plan : StartPlan) :
    (t.followStart plan).setting = t.setting := by
  cases plan with
  | speak message => exact t.say_setting message Rate.normal
  | running => rfl

@[simp] theorem followEnd_setting (t : Timeline) (step : EndStep) :
    (t.followEnd step).setting = t.setting := by
  rcases step with message | _ | ⟨_ | delay⟩
  · exact t.say_setting message Rate.normal
  · exact t.playChime_setting
  · rfl
  · rfl

theorem respond_setting (t : Timeline) (answer : Answer) :
    (t.respond answer).setting = t.setting := by
  rcases answer with refusal | (_ | plan | (_ | a | step) | step | (_ | step))
  case ok.started => exact followStart_setting { t with wait := none } plan
  case ok.ticked.announce => exact t.say_setting a.message a.rate
  case ok.ticked.finished => exact t.followEnd_setting step
  case ok.stopped => exact followEnd_setting { t with wait := none } step
  case ok.advanced.some => exact followEnd_setting { t with wait := none } step
  all_goals rfl

theorem Reacts.setting {t u : Timeline} {op : Operation} (h : t.Reacts op u) :
    u.setting = (t.now, t.gateways, t.closed, (t.countdown.perform op).countdown) := by
  obtain ⟨next, rfl⟩ := h
  exact respond_setting (t.moved (t.countdown.perform op)) (t.countdown.perform op).value

theorem Reacts.countdown {t u : Timeline} {op : Operation} (h : t.Reacts op u) :
    u.countdown = (t.countdown.perform op).countdown :=
  congrArg (·.2.2.2) h.setting

theorem Reacts.gateways {t u : Timeline} {op : Operation} (h : t.Reacts op u) :
    u.gateways = t.gateways :=
  congrArg (·.2.1) h.setting

theorem Reacts.wait_of_error {t u : Timeline} {op : Operation} {refusal : Refusal}
    (h : t.Reacts op u) (hvalue : (t.countdown.perform op).value = .error refusal) :
    u.wait = t.wait := by
  obtain ⟨next, rfl⟩ := h
  simp only [react, hvalue]
  rfl

theorem handle_now (t : Timeline) (time : Nat) (event : Event) :
    (t.handle time event).now = max t.now time := by
  cases event with
  | tick => exact congrArg (·.1) (onTick_reacts _).setting
  | waitOver kind => exact congrArg (·.1) (onWaitOver_reacts _ kind).setting

-- ---------------------------------------------------------------------------
-- Timed runs
-- ---------------------------------------------------------------------------

section
variable {t : Timeline} {time horizon : Nat} {event : Event}

theorem upcoming_tick (h : t.upcoming = some (time, .tick)) :
    t.closed = false ∧ t.countdown.state = .running ∧ t.nextTick = time := by
  unfold upcoming at h
  split at h
  · cases h
  · rename_i opened
    cases hw : t.wait <;> by_cases hs : t.countdown.state = .running <;> simp [hw, hs] at h
    · exact ⟨by simpa using opened, hs, h⟩
    · split at h
      · cases h
      · exact ⟨by simpa using opened, hs, congrArg Prod.fst h⟩

theorem upcoming_waitOver {kind : WaitKind} (h : t.upcoming = some (time, .waitOver kind)) :
    t.closed = false ∧ ∃ wait, t.wait = some wait ∧ wait.kind = kind ∧ wait.endsAt = time := by
  unfold upcoming at h
  split at h
  · cases h
  · rename_i opened
    cases hw : t.wait <;> by_cases hs : t.countdown.state = .running <;> simp [hw, hs] at h
    · split at h
      · cases h
        exact ⟨by simpa using opened, _, rfl, rfl, rfl⟩
      · cases h
    · exact ⟨by simpa using opened, _, rfl, h.2, h.1⟩

theorem handle_after (h : t.upcoming = some (time, event)) :
    t.handle time event = t.after [.lapse (time - t.now), event.occurrence] := by
  have hnow : max t.now time = t.now + (time - t.now) := by omega
  cases event with
  | tick =>
    obtain ⟨opened, running, -⟩ := upcoming_tick h
    simp only [handle, hnow, after_cons, after_nil, Event.occurrence, happen, opened, running]
    rfl
  | waitOver kind =>
    obtain ⟨opened, wait, hwait, rfl, -⟩ := upcoming_waitOver h
    simp only [handle, hnow, after_cons, after_nil, Event.occurrence, happen, opened, hwait]
    rfl

def Due (t : Timeline) (horizon : Nat) : Prop :=
  ∃ time event, t.upcoming = some (time, event) ∧ time ≤ horizon

theorem not_due_of_upcoming_none (h : t.upcoming = none) : ¬ t.Due horizon := by
  rintro ⟨time, event, upcoming, -⟩
  cases h.symm.trans upcoming

theorem run_of_not_due (h : ¬ t.Due horizon) (fuel : Nat) : run horizon fuel t = t := by
  cases fuel with
  | zero => rfl
  | succ fuel =>
    simp only [run]
    split
    · rename_i time event upcoming
      exact if_neg fun hdue => h ⟨time, event, upcoming, hdue⟩
    · rfl

theorem run_of_due (upcoming : t.upcoming = some (time, event)) (hdue : time ≤ horizon)
    (fuel : Nat) : run horizon (fuel + 1) t = run horizon fuel (t.handle time event) := by
  simp [run, upcoming, hdue]

theorem runTo_of_not_due (h : ¬ t.Due horizon) :
    t.runTo horizon = { t with now := max t.now horizon } := by
  rw [runTo, run_of_not_due h]

theorem run_after (horizon fuel : Nat) (t : Timeline) :
    ∃ history, run horizon fuel t = t.after history := by
  induction fuel generalizing t with
  | zero => exact ⟨[], rfl⟩
  | succ fuel ih =>
    by_cases hdue : t.Due horizon
    · obtain ⟨time, event, upcoming, hdue⟩ := hdue
      obtain ⟨history, hrun⟩ := ih (t.handle time event)
      refine ⟨[.lapse (time - t.now), event.occurrence] ++ history, ?_⟩
      rw [run_of_due upcoming hdue, hrun, after_append, handle_after upcoming]
    · exact ⟨[], run_of_not_due hdue _⟩

theorem run_now_le (horizon fuel : Nat) (t : Timeline) :
    (run horizon fuel t).now ≤ max t.now horizon := by
  induction fuel generalizing t with
  | zero => exact Nat.le_max_left ..
  | succ fuel ih =>
    by_cases hdue : t.Due horizon
    · obtain ⟨time, event, upcoming, hdue⟩ := hdue
      have hle := ih (t.handle time event)
      rw [handle_now] at hle
      rw [run_of_due upcoming hdue]
      omega
    · rw [run_of_not_due hdue]
      exact Nat.le_max_left ..

/-- Letting time pass is a history. -/
theorem runTo_after (t : Timeline) (horizon : Nat) :
    ∃ history, t.runTo horizon = t.after history := by
  obtain ⟨history, hrun⟩ := run_after horizon (t.eventBound horizon) t
  have hnow := run_now_le horizon (t.eventBound horizon) t
  rw [hrun] at hnow
  refine ⟨history ++ [.lapse (max t.now horizon - (t.after history).now)], ?_⟩
  have hsum : (t.after history).now + (max t.now horizon - (t.after history).now) =
      max t.now horizon := by omega
  rw [runTo, hrun, after_append, after_cons, after_nil, happen, hsum]

end

-- ---------------------------------------------------------------------------
-- One occurrence
-- ---------------------------------------------------------------------------

inductive Turn (t : Timeline) : Timeline → Prop where
  | idle {u : Timeline} (countdown : u.countdown = t.countdown) (journal : u.journal = t.journal)
      (gateways : u.gateways = t.gateways) (wait : u.wait.map (·.kind) = t.wait.map (·.kind)) :
      Turn t u
  | commanded {command : Command} {u : Timeline}
      (reacts : t.addressed.Reacts (command.operation t.addressed.instant) u) : Turn t u
  | ticked {u : Timeline} (running : t.countdown.state = .running)
      (reacts : t.Reacts (.tick t.instant) u) : Turn t u
  | waited {wait : Wait} {u : Timeline} (pending : t.wait = some wait)
      (reacts : Reacts { t with wait := none } (wait.kind.operation t.instant) u) : Turn t u
  | dropped {u : Timeline} (reacts : t.Reacts .unload u) : Turn t { u with closed := true }

theorem Turn.refl (t : Timeline) : Turn t t := .idle rfl rfl rfl rfl

theorem release_turn (t : Timeline) : Turn t t.release := by
  unfold release
  split
  · rename_i wait hwait
    split
    · exact .idle rfl rfl rfl (by rw [hwait]; rfl)
    · exact .refl t
  · exact .refl t

theorem happen_turn (t : Timeline) (o : Occurrence) : Turn t (t.happen o) := by
  cases o with
  | command command =>
    cases h : t.closed with
    | true => simpa [happen, perform, h] using Turn.refl t
    | false =>
      rw [happen, perform_eq h]
      exact .commanded (t.addressed.carryOut_reacts command)
  | lapse ms => exact .idle rfl rfl rfl rfl
  | tick =>
    simp only [happen]
    split
    · rename_i h
      exact .ticked h.2 t.onTick_reacts
    · exact .refl t
  | waitOver =>
    simp only [happen]
    split
    · rename_i wait hwait
      split
      · exact .refl t
      · exact .waited hwait (t.onWaitOver_reacts wait.kind)
    · exact .refl t
  | release => exact t.release_turn
  | drop =>
    simp only [happen, drop]
    split
    · exact .refl t
    · exact .dropped ⟨t.nextTick, rfl⟩
  | abort => exact .idle rfl rfl rfl rfl

end Timeline

end SpokenCountdown
