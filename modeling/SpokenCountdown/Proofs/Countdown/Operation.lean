import SpokenCountdown.Countdown

/-!
# Operations as data

A history of a countdown is a list of operations: calls with their arguments,
in any order and with any instants. `perform` is the one step of a history, and
what a call answers is a refusal or a reply.
-/

namespace SpokenCountdown.Countdown

inductive Operation where
  | configure (settings : Settings)
  | start (now : Nat)
  | beginRunning (now : Nat)
  | tick (now : Nat)
  | pause (now : Nat)
  | resume (now : Nat)
  | stop (silent : Bool)
  | advanceEnding
  | reset (force : Bool)
  | restart (now : Nat)
  | autoRestart (now : Nat)
  | unload
  deriving DecidableEq, Repr

inductive Reply where
  | done
  | started (plan : StartPlan)
  | ticked (outcome : TickOutcome)
  | stopped (step : EndStep)
  | advanced (step : Option EndStep)
  deriving DecidableEq, Repr

abbrev Answer := Except Refusal Reply

def Step.answering (step : Step α) (answer : α → Answer) : Step Answer :=
  ⟨step.countdown, step.changes, answer step.value⟩

def perform (c : Countdown) : Operation → Step Answer
  | .configure settings => (c.configure settings).answering (·.map fun _ => .done)
  | .start now => (c.start now).answering (·.map .started)
  | .beginRunning now => (c.beginRunning now).answering (·.map fun _ => .done)
  | .tick now => (c.tick now).answering fun outcome => .ok (.ticked outcome)
  | .pause now => (c.pause now).answering (·.map fun _ => .done)
  | .resume now => (c.resume now).answering (·.map fun _ => .done)
  | .stop silent => (c.stop silent).answering (·.map .stopped)
  | .advanceEnding => c.advanceEnding.answering fun step => .ok (.advanced step)
  | .reset force => (c.reset force).answering (·.map fun _ => .done)
  | .restart now => (c.restart now).answering (·.map .started)
  | .autoRestart now => (c.autoRestart now).answering (·.map .started)
  | .unload => c.unload.answering fun _ => .ok .done

def after (c : Countdown) (history : List Operation) : Countdown :=
  history.foldl (fun c op => (c.perform op).countdown) c

@[simp] theorem after_nil (c : Countdown) : c.after [] = c := rfl

@[simp] theorem after_cons (c : Countdown) (op : Operation) (rest : List Operation) :
    c.after (op :: rest) = (c.perform op).countdown.after rest := rfl

theorem after_append (c : Countdown) (first second : List Operation) :
    c.after (first ++ second) = (c.after first).after second :=
  List.foldl_append

def reported (c : Countdown) : List Operation → List Change
  | [] => []
  | op :: rest => (c.perform op).changes ++ (c.perform op).countdown.reported rest

end SpokenCountdown.Countdown
