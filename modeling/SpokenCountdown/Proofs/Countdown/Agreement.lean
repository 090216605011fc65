import SpokenCountdown.Proofs.Countdown.Percent
import SpokenCountdown.Proofs.Countdown.Register
import SpokenCountdown.Proofs.Countdown.Transition

/-!
# The register and the countdown agree

Every operation takes the register of a sound countdown to the register of the
countdown it leads to, with the same answer and the same changes and without a
fallback. So what is shown of countdowns holds of registers, whose fields are
not tied to each other by their type.
-/

namespace SpokenCountdown

open Countdown

theorem Countdown.changesAlong_cons (previous next : State) (rest : List State) :
    changesAlong previous (next :: rest) =
      changesAlong previous [next] ++ changesAlong next rest := by
  by_cases h : previous = next <;> simp [changesAlong, h]

-- ---------------------------------------------------------------------------
-- The register by itself
-- ---------------------------------------------------------------------------

namespace Register

theorem goTo_eq (r : Register) (next : Countdown.State) :
    r.goTo next =
      { r with state := next, changes := r.changes ++ changesAlong r.state [next] } := by
  unfold goTo
  split
  · rename_i h
    simp [changesAlong, ← h]
  · rename_i h
    simp [changesAlong, h]

theorem complete_eq (r : Register) (mayRestart : Bool) :
    r.complete mayRestart =
      ({ r with phase := .idle, state := .ended,
                changes := r.changes ++ changesAlong r.state [.ended] },
        .done (if mayRestart then r.session?.bind (·.autoRestart) else none)) := by
  simp [complete, goTo_eq]

theorem finish_loud {session : Session} (r : Register) (h : r.session? = some session) :
    r.finish false =
      if session.sayEnd then
        ({ r with queue := [], anchor? := none, state := .ending, phase := .speaking,
                  changes := r.changes ++ changesAlong r.state [.ending] },
          .speak session.endMessage)
      else if session.endChime then
        ({ r with queue := [], anchor? := none, state := .ending, phase := .chiming,
                  changes := r.changes ++ changesAlong r.state [.ending] }, .chime)
      else { r with queue := [], anchor? := none }.complete true := by
  cases hs : session.sayEnd <;> cases hc : session.endChime <;>
    simp [finish, advanceEnding, goTo_eq, h, hs, hc]

end Register

-- ---------------------------------------------------------------------------
-- The register of a countdown
-- ---------------------------------------------------------------------------

def Ending.phase : Option Ending → Phase
  | none => .idle
  | some .speaking => .speaking
  | some .chiming => .chiming

namespace Countdown

def register (c : Countdown) (changes : List Change) : Register where
  session? := c.session?
  state := c.state
  remaining := c.remaining
  percent := c.percentLeft
  queue := c.queue
  anchor? := c.anchor?
  phase := Ending.phase c.ending?
  changes := changes

def Step.register (step : Step α) (changes : List Change) : Register × α :=
  (step.countdown.register (changes ++ step.changes), step.value)

section
variable {session : Session} {run : Run} (c : Countdown) (changes : List Change) (now : Nat)

theorem register_stay (value : α) :
    (c.visit [] value).register changes = (c.register changes, value) := by
  simp [visit, Step.register, changesAlong]

theorem register_visit_cons (d : Countdown) (stops : List Countdown) (value : α) :
    (c.visit (d :: stops) value).register changes =
      (d.visit stops value).register (changes ++ changesAlong c.state [d.state]) := by
  simp only [Step.register, visit, List.map_cons, List.getLast?_cons, Option.getD_some]
  rw [changesAlong_cons, List.append_assoc]

theorem register_refusal (action : Action) :
    (c.register changes).refusal action = c.refusal action := by
  cases c with
  | unset => rfl
  | loaded session run => cases run <;> rfl

theorem register_refuse (action : Action) :
    (c.refuse action : Step (Except Refusal α)).register changes =
      (c.register changes, .error ((c.register changes).refusal action)) := by
  rw [register_refusal]
  exact register_stay c changes _

theorem register_ready (h : session.Sound) :
    (Countdown.loaded session .ready).register changes =
      { session? := some session, state := .ready, remaining := session.total,
        percent := Binary.ofNat .double 100, queue := session.announcements, anchor? := none,
        phase := .idle, changes := changes } := by
  have hpos := h.positive
  have hle := h.bounded
  have hfull : percent session.total session.total = Binary.ofNat .double 100 :=
    percent_self (by omega) (by omega)
  rw [← hfull]
  rfl

-- ---------------------------------------------------------------------------
-- Loading
-- ---------------------------------------------------------------------------

theorem register_fresh (r : Register) (h : session.Sound) (hr : r.fallbacks = []) :
    { r.fresh session with session? := some session }.goTo .ready =
      (Countdown.loaded session .ready).register (r.changes ++ changesAlong r.state [.ready]) := by
  rw [Register.goTo_eq, register_ready _ h, ← hr]
  rfl

theorem register_reload (h : session.Sound) :
    ((Countdown.loaded session run).register changes).reload =
      (Countdown.loaded session .ready).register (changes ++ changesAlong run.state [.ready]) :=
  register_fresh ((Countdown.loaded session run).register changes) h rfl

theorem percentLeft_unset : Countdown.unset.percentLeft = Binary.ofNat .double 0 := by
  rw [percentLeft, Countdown.percent]
  exact if_pos rfl

theorem register_unload : (c.register changes).unload = (c.unload.register changes).1 := by
  unfold Register.unload
  rw [Register.goTo_eq, ← percentLeft_unset]
  rfl

theorem register_configure (settings : Settings) :
    (c.register changes).configure settings = (c.configure settings).register changes := by
  unfold Register.configure Countdown.configure
  cases hs : settings.session with
  | ok session =>
    have load : ({ (c.register changes).fresh session with session? := some session }.goTo .ready,
        .ok ()) = (c.visit [.loaded session .ready] (.ok () : Except Refusal Unit)).register
          changes := by
      rw [register_fresh (c.register changes) (Settings.session_sound hs) rfl]
      rfl
    cases c with
    | unset => exact load
    | loaded session run =>
      cases run with
      | ready | paused | ended => exact load
      | _ => exact (register_refuse ..).symm
  | error cause =>
    have unload : ((c.register changes).unload, .error (.badSettings cause)) =
        (c.visit [.unset] (.error (.badSettings cause) : Except Refusal Unit)).register
          changes := by
      rw [register_unload]
      rfl
    cases c with
    | unset => exact unload
    | loaded session run =>
      cases run with
      | ready | paused | ended => exact unload
      | _ => exact (register_refuse ..).symm

theorem register_reset (h : c.Sound) (force : Bool) :
    (c.register changes).reset force = (c.reset force).register changes := by
  cases c with
  | unset => exact (register_refuse ..).symm
  | loaded session run =>
    have hreload : (((Countdown.loaded session run).register changes).reload, .ok ()) =
        ((Countdown.loaded session run).visit [.loaded session .ready]
          (.ok () : Except Refusal Unit)).register changes := by
      rw [register_reload _ h.1]
      rfl
    cases run with
    | paused | ended =>
      simp only [Countdown.reset, Run.state, decide_true, Bool.or_true, Bool.true_or, ↓reduceIte]
      exact hreload
    | _ =>
      cases force with
      | true => exact hreload
      | false => exact (register_refuse ..).symm

-- ---------------------------------------------------------------------------
-- Starting
-- ---------------------------------------------------------------------------

theorem register_beginRunning :
    (c.register changes).beginRunning now = (c.beginRunning now).register changes := by
  cases c with
  | unset => exact (register_refuse ..).symm
  | loaded session run =>
    cases run with
    | starting => rfl
    | _ => exact (register_refuse ..).symm

theorem register_launch :
    ((Countdown.loaded session .ready).register changes).start now =
      ((Countdown.loaded session .ready).visit (session.launch now).1
        (.ok (session.launch now).2 : Except Refusal StartPlan)).register changes := by
  have hstart : ((Countdown.loaded session .ready).register changes).start now =
      if session.sayStart then
        ((Countdown.loaded session .starting).register (changes ++ [⟨.ready, .starting⟩]),
          .ok (.speak session.startMessage))
      else
        ((Countdown.loaded session (session.startedAt now)).register
          (changes ++ [⟨.ready, .starting⟩] ++ [⟨.starting, .running⟩]), .ok .running) := rfl
  rw [hstart]
  unfold Session.launch
  split
  · rfl
  · simp only [Step.register, visit, List.append_assoc]
    rfl

theorem register_start :
    (c.register changes).start now = (c.start now).register changes := by
  cases c with
  | unset => exact (register_refuse ..).symm
  | loaded session run =>
    cases run with
    | ready => exact register_launch changes now
    | _ => exact (register_refuse ..).symm

theorem register_relaunch (h : session.Sound) :
    ((Countdown.loaded session run).register changes).reload.start now =
      ((Countdown.loaded session run).relaunch session now).register changes := by
  rw [register_reload _ h, register_launch]
  exact (register_visit_cons (.loaded session run) changes (.loaded session .ready) _ _).symm

theorem register_restart (h : c.Sound) :
    (c.register changes).restart now = (c.restart now).register changes := by
  cases c with
  | unset => exact (register_refuse ..).symm
  | loaded session run =>
    cases run with
    | paused =>
      rw [Register.restart, if_pos (.inl rfl)]
      exact register_relaunch changes now h.1
    | ended =>
      rw [Register.restart, if_pos (.inr rfl)]
      exact register_relaunch changes now h.1
    | _ => exact (register_refuse ..).symm

theorem register_autoRestart (h : c.Sound) :
    (c.register changes).autoRestart now = (c.autoRestart now).register changes := by
  cases c with
  | unset => exact (register_refuse ..).symm
  | loaded session run =>
    cases run with
    | ended =>
      rw [Register.autoRestart, if_pos (by rfl)]
      exact register_relaunch changes now h.1
    | _ => exact (register_refuse ..).symm

-- ---------------------------------------------------------------------------
-- Ending
-- ---------------------------------------------------------------------------

theorem register_finish :
    ((Countdown.loaded session run).register changes).finish false =
      ((Countdown.loaded session run).visit
        [.loaded session (session.finish (run.remaining session.total)).1]
        (session.finish (run.remaining session.total)).2).register changes := by
  rw [Register.finish_loud _ rfl, Register.complete_eq]
  unfold Session.finish Session.afterEndMessage
  split
  · rfl
  · split <;> rfl

theorem register_finish_silent :
    ((Countdown.loaded session run).register changes).finish true =
      ((Countdown.loaded session run).visit
        [.loaded session (.ended (run.remaining session.total))]
        (EndStep.done none)).register changes := by
  simp only [Register.finish, Bool.true_or, ↓reduceIte, Register.complete_eq]
  rfl

theorem register_stop (silent : Bool) :
    (c.register changes).stop silent = (c.stop silent).register changes := by
  cases c with
  | unset => exact (register_refuse ..).symm
  | loaded session run =>
    have hfinish : (((Countdown.loaded session run).register changes).finish silent).map id .ok =
        ((Countdown.loaded session run).visit
          [.loaded session (if silent then Run.ended (run.remaining session.total)
            else (session.finish (run.remaining session.total)).1)]
          (.ok (if silent then .done none
            else (session.finish (run.remaining session.total)).2) :
            Except Refusal EndStep)).register changes := by
      cases silent with
      | true =>
        rw [register_finish_silent]
        rfl
      | false =>
        rw [register_finish]
        rfl
    cases run with
    | running | paused =>
      cases silent with
      | true => exact hfinish
      | false => exact hfinish
    | _ => exact (register_refuse ..).symm

theorem register_advanceEnding :
    (c.register changes).advanceEnding = c.advanceEnding.register changes := by
  cases c with
  | unset => exact (register_stay ..).symm
  | loaded session run =>
    cases run with
    | ending remaining phase =>
      cases phase with
      | speaking =>
        have hadvance : ((Countdown.loaded session (.ending remaining .speaking)).register
            changes).advanceEnding =
              if session.endChime then
                ((Countdown.loaded session (.ending remaining .chiming)).register changes,
                  some .chime)
              else
                (((Countdown.loaded session (.ending remaining .speaking)).register
                  changes).complete true).map id some := by
          simp only [Register.advanceEnding, register, Countdown.state, Run.state, session?,
            Ending.phase, Countdown.ending?, Run.ending?]
          cases session.endChime <;> rfl
        rw [hadvance, Register.complete_eq, Countdown.advanceEnding]
        unfold Session.afterEndMessage
        dsimp only
        split
        · simp [Step.register, visit, changesAlong, Countdown.state, Run.state]
        · rfl
      | chiming =>
        have hadvance : ((Countdown.loaded session (.ending remaining .chiming)).register
            changes).advanceEnding =
              (((Countdown.loaded session (.ending remaining .chiming)).register
                changes).complete true).map id some := rfl
        rw [hadvance, Register.complete_eq]
        rfl
    | _ => exact (register_stay ..).symm

-- ---------------------------------------------------------------------------
-- Running
-- ---------------------------------------------------------------------------

theorem register_tick :
    (c.register changes).tick now = (c.tick now).register changes := by
  cases c with
  | unset => exact (register_stay ..).symm
  | loaded session run =>
    cases run with
    | running remaining queue anchor =>
      -- the record while the run goes on, field by field
      have hstate (left anchor : Nat) : ((Countdown.loaded session
          (.running left queue anchor)).register changes).state = .running := rfl
      have hsession (left anchor : Nat) : ((Countdown.loaded session
          (.running left queue anchor)).register changes).session? = some session := rfl
      have hremaining (left anchor : Nat) : ((Countdown.loaded session
          (.running left queue anchor)).register changes).remaining = left := rfl
      have hqueue (left anchor : Nat) : ((Countdown.loaded session
          (.running left queue anchor)).register changes).queue = queue := rfl
      have hcount : ((Countdown.loaded session (.running remaining queue anchor)).register
          changes).count now session.total =
            (Countdown.loaded session (.running (elapse remaining anchor now).1 queue
              (elapse remaining anchor now).2)).register changes := rfl
      unfold Register.tick Countdown.tick
      simp only [hstate, hsession, hcount, ne_eq, not_true_eq_false, if_false, hremaining, hqueue]
      generalize elapse remaining anchor now = counted
      obtain ⟨left, anchor⟩ := counted
      dsimp only
      cases left with
      | zero =>
        simp only [planTick, ↓reduceIte, register_finish]
        rfl
      | succ n =>
        cases queue with
        | nil => simp [planTick, Step.register, visit, changesAlong, Run.state, state]
        | cons a rest =>
          cases hdue : a.isDue (n + 1) session.earlyFire with
          | true =>
            simp [planTick, Queue.popDue, Announcement.isPlanned_of_isDue hdue, hdue,
              Step.register, visit, changesAlong, Run.state, state]
            rfl
          | false =>
            -- What is planned and not due stays where it is.
            cases hplan : a.isPlanned (n + 1) session.earlyFire with
            | true =>
              simp [planTick, Queue.popDue, hplan, hdue, Step.register, visit, changesAlong,
                Run.state, state]
              rfl
            | false =>
              simp [planTick, hplan, Step.register, visit, changesAlong, Run.state, state]
    | _ => exact (register_stay ..).symm

theorem register_pause :
    (c.register changes).pause now = (c.pause now).register changes := by
  cases c with
  | unset => exact (register_refuse ..).symm
  | loaded session run =>
    cases run with
    | running remaining queue anchor =>
      have hpause : ((Countdown.loaded session (.running remaining queue anchor)).register
          changes).pause now =
            if session.allowPause then
              ((Countdown.loaded session (.paused (elapse remaining anchor now).1 queue)).register
                (changes ++ [⟨.running, .paused⟩]), .ok ())
            else ((Countdown.loaded session (.running remaining queue anchor)).register changes,
              .error .pauseDisabled) := rfl
      rw [hpause, Countdown.pause]
      split
      · rfl
      · exact (register_stay ..).symm
    | _ => exact (register_refuse ..).symm

theorem register_resume :
    (c.register changes).resume now = (c.resume now).register changes := by
  cases c with
  | unset => exact (register_refuse ..).symm
  | loaded session run =>
    cases run with
    | paused => rfl
    | _ => exact (register_refuse ..).symm

-- ---------------------------------------------------------------------------
-- Histories
-- ---------------------------------------------------------------------------

theorem register_perform (h : c.Sound) (op : Operation) :
    (c.register changes).perform op = (c.perform op).register changes := by
  cases op <;>
    simp only [Register.perform, perform, register_configure, register_start,
      register_beginRunning, register_tick, register_pause, register_resume,
      register_stop, register_advanceEnding, register_reset _ _ h, register_restart _ _ _ h,
      register_autoRestart _ _ _ h, register_unload] <;> rfl

theorem register_after_eq (h : c.Sound) (history : List Operation) :
    (c.register changes).after history =
      (c.after history).register (changes ++ c.reported history) := by
  induction history generalizing c changes with
  | nil =>
    rw [reported, List.append_nil]
    rfl
  | cons op rest ih =>
    have hrest := ih (c.perform op).countdown (changes ++ (c.perform op).changes) (h.perform op)
    rw [reported, ← List.append_assoc, after_cons, ← hrest]
    simp only [Register.after, List.foldl_cons, register_perform c changes h]
    rfl

theorem register_after (h : c.Sound) (history : List Operation) :
    ∃ more, (c.register changes).after history =
      (c.after history).register (changes ++ more) :=
  ⟨c.reported history, register_after_eq c changes h history⟩

end

end Countdown

end SpokenCountdown
