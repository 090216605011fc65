import SpokenCountdown.Proofs.Countdown.Transition

/-!
# Announcements are handed out in order

A recital keeps, beside a countdown, what its ticks have handed out since it was
last loaded. Until the ending that and the queue make up the announcements of
the session, whatever comes in between; from the ending on it is the part of
them that was reached.
-/

namespace SpokenCountdown

open Countdown

/-- A countdown and what it has handed out since it was last loaded. -/
structure Recital where
  countdown : Countdown := .unset
  spoken : List Announcement := []
  deriving DecidableEq, Repr

namespace Recital

/-- Loading begins a new list, an announcing tick adds to it. -/
def heard (spoken : List Announcement) : Operation → Answer → List Announcement
  | .configure _, .ok _ => []
  | .reset _, .ok _ => []
  | .restart _, .ok _ => []
  | .autoRestart _, .ok _ => []
  | _, .ok (.ticked (.announce a)) => spoken ++ [a]
  | _, _ => spoken

def perform (r : Recital) (op : Operation) : Recital :=
  let step := r.countdown.perform op
  ⟨step.countdown, heard r.spoken op step.value⟩

def after (r : Recital) (history : List Operation) : Recital :=
  history.foldl perform r

@[simp] theorem heard_error (spoken : List Announcement) (op : Operation) (refusal : Refusal) :
    heard spoken op (.error refusal) = spoken := by
  cases op <;> rfl

theorem countdown_after (r : Recital) (history : List Operation) :
    (r.after history).countdown = r.countdown.after history := by
  induction history generalizing r with
  | nil => rfl
  | cons op rest ih => exact ih (r.perform op)

end Recital

-- ---------------------------------------------------------------------------
-- One step
-- ---------------------------------------------------------------------------

/-- What was handed out and what is queued account for the session's
announcements. -/
def Run.Accounts (session : Session) (spoken : List Announcement) : Run → Prop
  | .ending .. | .ended .. => spoken <+: session.announcements
  | run => spoken ++ run.queue session.announcements = session.announcements

def Countdown.Accounts (spoken : List Announcement) : Countdown → Prop
  | .unset => True
  | .loaded session run => run.Accounts session spoken

section
variable {session : Session} {run : Run} {spoken : List Announcement}
  {remaining anchor now : Nat} {queue : Queue} {outcome : TickOutcome}
  {c d : Countdown} {op : Operation} {answer : Answer} {a : Announcement}

theorem Run.Accounts.reached (h : run.Accounts session spoken) :
    spoken <+: session.announcements := by
  cases run with
  | ready | starting | running | paused => exact ⟨_, h⟩
  | ending | ended => exact h

theorem Session.afterEndMessage_accounts (h : spoken <+: session.announcements) :
    (session.afterEndMessage remaining).1.Accounts session spoken := by
  unfold afterEndMessage
  split <;> exact h

theorem Session.finish_accounts (h : spoken <+: session.announcements) :
    (session.finish remaining).1.Accounts session spoken := by
  unfold finish
  split
  · exact h
  · exact afterEndMessage_accounts h

theorem Session.launched_accounts (now : Nat)
    (h : spoken ++ session.announcements = session.announcements) :
    (session.launched now).Accounts session spoken := by
  unfold launched
  split <;> exact h

namespace Countdown

theorem Ticked.accounts (h : Ticked session anchor remaining queue outcome run) (now : Nat)
    (hq : spoken ++ queue = session.announcements) :
    run.Accounts session (Recital.heard spoken (.tick now) (.ok (.ticked outcome))) := by
  cases h with
  | waited => exact hq
  | announced => exact (List.append_assoc ..).trans hq
  | finished => exact Session.finish_accounts ⟨queue, hq⟩

theorem Transition.accounts (h : Transition c op answer d) (hc : c.Accounts spoken) :
    d.Accounts (Recital.heard spoken op answer) := by
  cases h with
  | refused =>
    rw [Recital.heard_error]
    exact hc
  | overlooked | passed => exact hc
  | unloaded | misconfigured => trivial
  | configured | reset => exact List.nil_append _
  | launched launches =>
    cases launches with
    | start => exact Session.launched_accounts _ hc
    | restartPaused | restartEnded | autoRestart =>
      exact Session.launched_accounts _ (List.nil_append _)
  | begun => exact hc
  | ticked way => exact way.accounts _ hc
  | paused | resumed => exact hc
  | silenced => exact hc.reached
  | stopped => exact Session.finish_accounts hc.reached
  | spoken => exact Session.afterEndMessage_accounts hc
  | chimed => exact hc

/-- An announcing tick hands out the head of the queue, while time remains and
not before the early-fire margin. -/
theorem tick_announce (ht : (c.tick now).value = .announce a) :
    ∃ session ∈ (c.tick now).countdown.session?,
      c.queue = a :: (c.tick now).countdown.queue ∧
      0 < (c.tick now).countdown.remaining ∧
      (c.tick now).countdown.remaining ≤ a.offset + session.earlyFire := by
  have step := tick_transition c now
  simp only [Countdown.perform, Step.answering, ht] at step
  generalize (c.tick now).countdown = d at step
  cases step with
  | ticked way =>
    obtain ⟨rest, rfl, rfl, positive, due⟩ := way.of_announce
    exact ⟨_, rfl, rfl, positive, Announcement.le_of_isDue due⟩

theorem tick_idle (hc : c.state = .running) (ht : (c.tick now).value = .idle) :
    ∃ session ∈ (c.tick now).countdown.session?,
      (c.tick now).countdown.queue = c.queue ∧
      ∀ a ∈ c.queue.head?, a.isDue (c.tick now).countdown.remaining session.earlyFire = false := by
  have step := tick_transition c now
  simp only [Countdown.perform, Step.answering, ht] at step
  generalize (c.tick now).countdown = d at step
  cases step with
  | overlooked notRunning => exact absurd hc notRunning
  | ticked way =>
    obtain ⟨rfl, -, notDue⟩ := way.of_idle
    exact ⟨_, rfl, rfl, notDue⟩

end Countdown

end

-- ---------------------------------------------------------------------------
-- Every history
-- ---------------------------------------------------------------------------

namespace Recital

theorem after_accounts {r : Recital} (hr : r.countdown.Accounts r.spoken)
    (history : List Operation) :
    (r.after history).countdown.Accounts (r.after history).spoken := by
  induction history generalizing r with
  | nil => exact hr
  | cons op rest ih => exact ih ((perform_transition _ op).accounts hr)

/-- In every history, at whatever instants, announcements are handed out one at
a time, in the order of the session's list and none left out, each while it is
due; and a tick stays idle only if the head of the queue is not due, so that its
margin has not begun unless the sum is no word. -/
theorem delivered_in_order (history : List Operation) :
    let r := ({} : Recital).after history
    let c := r.countdown
    c = Countdown.unset.after history ∧
      (c.state = .ready ∨ c.state = .starting ∨ c.state = .running ∨ c.state = .paused →
        r.spoken ++ c.queue = c.announcements) ∧
      (c.state = .ending ∨ c.state = .ended → r.spoken <+: c.announcements) ∧
      ∀ now,
        (∀ a, (c.tick now).value = .announce a →
          ∃ session ∈ (c.tick now).countdown.session?,
            c.queue = a :: (c.tick now).countdown.queue ∧
            0 < (c.tick now).countdown.remaining ∧
            (c.tick now).countdown.remaining ≤ a.offset + session.earlyFire) ∧
        (c.state = .running → (c.tick now).value = .idle →
          ∃ session ∈ (c.tick now).countdown.session?,
            (c.tick now).countdown.queue = c.queue ∧
            ∀ a ∈ (c.tick now).countdown.queue.head?,
              a.isDue (c.tick now).countdown.remaining session.earlyFire = false ∧
                (a.offset + session.earlyFire < Text.word64 →
                  a.offset + session.earlyFire < (c.tick now).countdown.remaining)) := by
  intro r c
  have hc : c = Countdown.unset.after history := countdown_after {} history
  have haccounts : c.Accounts r.spoken := after_accounts (r := {}) trivial history
  refine ⟨hc, fun hlive => ?_, fun hover => ?_, fun now => ⟨fun a ht => ?_, fun hrun ht => ?_⟩⟩
  · generalize c = c at *
    cases c with
    | unset => simp [state] at hlive
    | loaded session run =>
      cases run with
      | ready | starting | running | paused => exact haccounts
      | ending | ended => simp [state, Run.state] at hlive
  · generalize c = c at *
    cases c with
    | unset => simp [state] at hover
    | loaded session run => exact Run.Accounts.reached haccounts
  · exact tick_announce ht
  · obtain ⟨session, hsession, hqueue, hnot⟩ := tick_idle hrun ht
    refine ⟨session, hsession, hqueue, fun a ha => ?_⟩
    have hdue := hnot a (hqueue ▸ ha)
    exact ⟨hdue, fun hword => Announcement.lt_of_not_isDue hword hdue⟩

end Recital

end SpokenCountdown
