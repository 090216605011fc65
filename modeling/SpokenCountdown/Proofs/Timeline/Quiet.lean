import SpokenCountdown.Proofs.Timeline.InStep

/-!
# Quiet timelines

A timeline that neither runs nor waits has no next event, so only a command
moves it. A command that comes while an automatic restart is pending leaves such
a timeline behind, or has itself started a new run; either way it goes as if the
delay had never been.
-/

namespace SpokenCountdown

open Countdown

inductive Lull where
  | sleep (ms : Nat)
  /-- Utterances that are held end. -/
  | release
  deriving DecidableEq, Repr

namespace Timeline

def lull (t : Timeline) : Lull → Timeline
  | .sleep ms => t.sleep ms
  | .release => t.release.settle

def lulls (t : Timeline) (lulls : List Lull) : Timeline :=
  lulls.foldl lull t

def Quiet (t : Timeline) : Prop :=
  t.countdown.state = .unset ∨ t.countdown.state = .ready ∨ t.countdown.state = .paused ∨
    (t.countdown.state = .ended ∧ t.wait = none)

section
variable {t u : Timeline} {command : Command}

-- ---------------------------------------------------------------------------
-- Without a command
-- ---------------------------------------------------------------------------

theorem InStep.wait_of_quiet (h : t.InStep) (quiet : t.Quiet) : t.wait = none := by
  rcases quiet with hstate | hstate | hstate | ⟨-, hwait⟩
  · exact h.wait_eq_none (awaited_eq_none (.inl hstate))
  · exact h.wait_eq_none (awaited_eq_none (.inr (.inl hstate)))
  · exact h.wait_eq_none (awaited_eq_none (.inr (.inr (.inr hstate))))
  · exact hwait

theorem Quiet.not_running (quiet : t.Quiet) : t.countdown.state ≠ .running := by
  intro hrunning
  simp [Quiet, hrunning] at quiet

theorem upcoming_eq_none (hwait : t.wait = none) (hstate : t.countdown.state ≠ .running) :
    t.upcoming = none := by
  simp [upcoming, hwait, hstate]

theorem lull_of_quiet (h : t.InStep) (quiet : t.Quiet) (l : Lull) :
    ∃ now, t.lull l = { t with now } := by
  have hwait := h.wait_of_quiet quiet
  have hnone := upcoming_eq_none hwait quiet.not_running
  have hrelease : t.release = t := by simp [release, hwait]
  cases l with
  | sleep ms => exact ⟨_, runTo_of_not_due (not_due_of_upcoming_none hnone)⟩
  | release =>
    rw [lull, hrelease]
    exact ⟨_, runTo_of_not_due (not_due_of_upcoming_none hnone)⟩

theorem lulls_of_quiet (h : t.InStep) (quiet : t.Quiet) (ls : List Lull) :
    ∃ now, t.lulls ls = { t with now } := by
  induction ls generalizing t with
  | nil => exact ⟨t.now, rfl⟩
  | cons l rest ih =>
    obtain ⟨now, hl⟩ := lull_of_quiet h quiet l
    have hnext : InStep { t with now } := ⟨h.sound, h.origin, h.awaiting⟩
    obtain ⟨later, hrest⟩ := ih hnext quiet
    exact ⟨later, by rw [← hrest, ← hl]; rfl⟩

-- ---------------------------------------------------------------------------
-- A command before an automatic restart
-- ---------------------------------------------------------------------------

theorem perform_cancels (hopen : t.closed = false) (hawaits : t.awaits = some .autoRestart)
    (command : Command) : { t with wait := none }.perform command = t.perform command := by
  have haddressed : addressed { t with wait := none } = t.addressed := by
    obtain ⟨wait, hwait, hkind⟩ := Option.map_eq_some_iff.mp hawaits
    rw [addressed_eq, addressed_eq]
    simp [Option.filter, hwait, hkind]
  rw [perform_eq hopen, perform_eq (t := { t with wait := none }) hopen, haddressed]

theorem perform_ended {c : Countdown} (hended : c.state = .ended) (hcommand : command ≠ .restart)
    (now : Nat) :
    (c.perform (command.operation now)).countdown.state = .unset ∨
      (c.perform (command.operation now)).countdown.state = .ready ∨
      ((c.perform (command.operation now)).countdown = c ∧
        ∃ refusal, (c.perform (command.operation now)).value = .error refusal) := by
  rcases c with _ | ⟨session, _ | _ | _ | _ | _ | remaining⟩ <;> cases hended
  cases command with
  | configure settings =>
    have transition := configure_transition (loaded session (.ended remaining)) settings
    simp only [Command.operation]
    generalize ((loaded session (.ended remaining)).perform (.configure settings)).countdown = d,
      ((loaded session (.ended remaining)).perform (.configure settings)).value = answer
      at transition
    cases transition with
    | refused => exact .inr (.inr ⟨rfl, _, rfl⟩)
    | misconfigured => exact .inl rfl
    | configured => exact .inr (.inl rfl)
    | launched launches => cases launches
  | reset force => cases force <;> exact .inr (.inl rfl)
  | restart => exact absurd rfl hcommand
  | start | pause | resume => exact .inr (.inr ⟨rfl, _, rfl⟩)
  | stop silent => exact .inr (.inr ⟨rfl, _, rfl⟩)

theorem perform_quiet (hopen : t.closed = false) (hwait : t.wait = none)
    (hended : t.countdown.state = .ended) (hcommand : command ≠ .restart) :
    (t.perform command).1.Quiet := by
  have hsame := t.addressed_countdown
  have haddressed : t.addressed.wait = none := by rw [addressed_wait, hwait]; rfl
  have reacts := t.addressed.carryOut_reacts command
  rw [← perform_eq hopen] at reacts
  rw [Quiet, reacts.countdown, hsame]
  rcases perform_ended hended hcommand t.addressed.instant with hunset | hready | ⟨hkept, _, herror⟩
  · exact .inl hunset
  · exact .inr (.inl hready)
  · refine .inr (.inr (.inr ⟨hkept.symm ▸ hended, ?_⟩))
    rw [reacts.wait_of_error (hsame ▸ herror), haddressed]

theorem launched_state (session : Session) (now : Nat) :
    (session.launched now).state = .starting ∨ (session.launched now).state = .running := by
  unfold Session.launched
  split
  · exact .inl rfl
  · exact .inr rfl

theorem apply_ok {step : Step (Except Refusal α)} {follow : Timeline → α → Timeline} {value : α}
    (h : step.value = .ok value) :
    (t.apply step follow).2 = .ok (t.apply step follow).1.countdown.state := by
  simp only [apply, h]

theorem restart_ended {c : Countdown} (hended : c.state = .ended) (now : Nat) :
    ∃ session plan, (c.restart now).value = .ok plan ∧
      (c.restart now).countdown = .loaded session (session.launched now) := by
  rcases c with _ | ⟨session, _ | _ | _ | _ | _ | remaining⟩ <;> cases hended
  exact ⟨session, _, rfl, relaunch_countdown ..⟩

theorem perform_restart (hopen : t.closed = false) (hended : t.countdown.state = .ended) :
    (t.perform .restart).2 = .ok (t.perform .restart).1.countdown.state ∧
      ((t.perform .restart).1.countdown.state = .starting ∨
        (t.perform .restart).1.countdown.state = .running) := by
  rw [← addressed_countdown] at hended
  obtain ⟨session, plan, hvalue, hcountdown⟩ := restart_ended hended t.addressed.instant
  have reacts := t.addressed.carryOut_reacts .restart
  rw [perform_eq hopen]
  refine ⟨apply_ok hvalue, ?_⟩
  rw [reacts.countdown]
  exact hcountdown ▸ launched_state session _

/-- From a timeline that neither runs nor waits nothing follows, whatever time
goes by and whatever is released. A command before an automatic restart goes as
if there were none to come: a restart begins a run of its own, and after any
other command, accepted or refused, there is nothing to happen. -/
theorem quiet_until_commanded (gateways : Gateways) (history : List Occurrence) :
    let t := ({ gateways } : Timeline).after history
    (t.Quiet → ∀ ls, ∃ now, t.lulls ls = { t with now } ∧
      (t.lulls ls).snapshot = t.snapshot ∧ (t.lulls ls).journal = t.journal) ∧
    (t.closed = false → t.awaits = some .autoRestart → ∀ command,
      let u := (t.perform command).1
      { t with wait := none }.perform command = t.perform command ∧
        u.awaits ≠ some .autoRestart ∧
        (command = .restart → (t.perform command).2 = .ok u.countdown.state ∧
          (u.countdown.state = .starting ∨ u.countdown.state = .running)) ∧
        (command ≠ .restart → u.Quiet ∧ ∀ ls, ∃ now, u.lulls ls = { u with now })) := by
  intro t
  have h : t.InStep := (InStep.start gateways).after history
  refine ⟨fun quiet ls => ?_, fun hopen hawaits command => ?_⟩
  · obtain ⟨now, hlulls⟩ := lulls_of_quiet h quiet ls
    exact ⟨now, hlulls, by rw [hlulls]; rfl, by rw [hlulls]⟩
  · intro u
    have hu : u.InStep := h.turn (t.happen_turn (.command command))
    have hended := (awaited_autoRestart_iff.mp (h.awaited_of_awaits hawaits)).1
    have hcancels := perform_cancels hopen hawaits command
    have hrestart : command = .restart → (t.perform command).2 = .ok u.countdown.state ∧
        (u.countdown.state = .starting ∨ u.countdown.state = .running) := by
      rintro rfl
      exact perform_restart hopen hended
    have hquiet : command ≠ .restart → u.Quiet := by
      intro hcommand
      have quiet : Quiet ({ t with wait := none }.perform command).1 :=
        perform_quiet (t := { t with wait := none }) hopen rfl hended hcommand
      rwa [hcancels] at quiet
    refine ⟨hcancels, fun hagain => ?_, hrestart, fun hcommand => ?_⟩
    · have hstate := (awaited_autoRestart_iff.mp (hu.awaited_of_awaits hagain)).1
      by_cases hcommand : command = .restart
      · rcases (hrestart hcommand).2 with hlive | hlive <;> cases hstate.symm.trans hlive
      · simp [awaits, hu.wait_of_quiet (hquiet hcommand)] at hagain
    · exact ⟨hquiet hcommand, lulls_of_quiet hu (hquiet hcommand)⟩

end

end Timeline

end SpokenCountdown
