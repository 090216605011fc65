import SpokenCountdown.Proofs.Countdown.Transition

/-!
# The way of an operation

The states that an operation comes through can be told from its answer and from
the state it leads to. What it reports are the changes along them.
-/

namespace SpokenCountdown.Countdown

def route (d : Countdown) : Answer → List State
  | .ok (.started (.speak _)) => [.ready, d.state]
  | .ok (.started .running) => [.ready, .starting, d.state]
  | _ => [d.state]

theorem stay_changes (c : Countdown) (value : α) :
    (c.visit [] value).changes = changesAlong c.state [c.state] := by
  simp [visit, changesAlong]

theorem configure_changes (c : Countdown) (settings : Settings) :
    (c.configure settings).changes =
      changesAlong c.state [(c.configure settings).countdown.state] := by
  unfold configure
  split
  iterate 4
    cases settings.session <;> rfl
  exact c.stay_changes _

theorem tick_changes (c : Countdown) (now : Nat) :
    (c.tick now).changes = changesAlong c.state [(c.tick now).countdown.state] := by
  unfold tick
  split
  · simp only
    split
    · rfl
    · split <;> rfl
    · rfl
  · exact c.stay_changes _

theorem relaunch_changes (c : Countdown) (session : Session) (now : Nat) :
    (c.relaunch session now).changes =
      changesAlong c.state
        (route (c.relaunch session now).countdown (.ok (.started (session.launch now).2))) := by
  simp only [relaunch, Session.launch]
  split <;> rfl

theorem perform_changes (c : Countdown) (op : Operation) :
    (c.perform op).changes =
      changesAlong c.state (route (c.perform op).countdown (c.perform op).value) := by
  cases op with
  | configure settings =>
    have hroute : ∀ (d : Countdown) (value : Except Refusal Unit),
        route d (value.map fun _ => .done) = [d.state] := by
      rintro d (_ | _) <;> rfl
    simp only [perform, Step.answering, hroute, configure_changes]
  | tick now => exact c.tick_changes now
  | advanceEnding =>
    rcases c with _ | ⟨session, _ | _ | _ | _ | ⟨remaining, _ | _⟩ | _⟩ <;> rfl
  | stop silent =>
    rcases c with _ | ⟨session, _ | _ | _ | _ | _ | _⟩ <;> cases silent <;> rfl
  | reset force =>
    rcases c with _ | ⟨session, _ | _ | _ | _ | _ | _⟩ <;> cases force <;> rfl
  | restart now =>
    rcases c with _ | ⟨session, _ | _ | _ | ⟨remaining, queue⟩ | _ | remaining⟩
    case loaded.paused => exact relaunch_changes (.loaded session (.paused remaining queue)) ..
    case loaded.ended => exact relaunch_changes (.loaded session (.ended remaining)) ..
    all_goals rfl
  | autoRestart now =>
    rcases c with _ | ⟨session, _ | _ | _ | _ | _ | remaining⟩
    case loaded.ended => exact relaunch_changes (.loaded session (.ended remaining)) ..
    all_goals rfl
  | start now =>
    rcases c with _ | ⟨session, _ | _ | _ | _ | _ | _⟩
    case loaded.ready =>
      simp only [perform, Countdown.start, Session.launch]
      split <;> rfl
    all_goals rfl
  | pause now =>
    rcases c with _ | ⟨session, _ | _ | _ | _ | _ | _⟩
    case loaded.running =>
      simp only [perform, pause]
      split <;> rfl
    all_goals rfl
  | beginRunning now | resume now =>
    rcases c with _ | ⟨session, _ | _ | _ | _ | _ | _⟩ <;> rfl
  | unload => rfl

theorem route_last {c : Countdown} (d : Countdown) (answer : Answer) :
    (route d answer).getLast?.getD c.state = d.state := by
  unfold route
  split <;> rfl

-- ---------------------------------------------------------------------------
-- The steps on the way
-- ---------------------------------------------------------------------------

/-- The states that a change may lead to. -/
def State.successors : State → List State
  | .unset => [.ready]
  | .ready => [.starting, .unset]
  | .starting => [.running, .ready, .unset]
  | .running => [.paused, .ending, .ended, .ready, .unset]
  | .paused => [.running, .ending, .ended, .ready, .unset]
  | .ending => [.ended, .ready, .unset]
  | .ended => [.ready, .unset]

def State.Moves (s next : State) : Prop :=
  s = next ∨ next ∈ s.successors

instance (s next : State) : Decidable (s.Moves next) :=
  inferInstanceAs (Decidable (_ ∨ _))

theorem State.moves_ready (s : State) : s.Moves .ready := by
  cases s <;> decide

theorem State.moves_unset (s : State) : s.Moves .unset := by
  cases s <;> decide

theorem State.moves_ending {s next : State} (live : s = .running ∨ s = .paused)
    (hnext : next = .ending ∨ next = .ended) : s.Moves next := by
  rcases live with rfl | rfl <;> rcases hnext with rfl | rfl <;> decide

theorem afterEndMessage_moves (session : Session) (remaining : Nat) :
    State.ending.Moves (session.afterEndMessage remaining).1.state := by
  unfold Session.afterEndMessage
  split
  · exact .inl rfl
  · exact .inr (.head _)

theorem launched_moves (s : State) (session : Session) (now : Nat) :
    (s :: route (.loaded session (session.launched now))
      (.ok (.started (session.launch now).2))).IsChain State.Moves := by
  have starts : State.ready.Moves .starting := .inr (.head _)
  unfold Session.launch Session.launched
  split
  · exact .cons_cons s.moves_ready (.cons_cons starts (.singleton _))
  · exact .cons_cons s.moves_ready
      (.cons_cons starts (.cons_cons (.inr (.head _)) (.singleton _)))

theorem Ticked.moves {session : Session} {remaining anchor : Nat} {queue : Queue}
    {outcome : TickOutcome} {run : Run} (h : Ticked session anchor remaining queue outcome run) :
    State.running.Moves run.state := by
  cases h with
  | waited | announced => exact .inl rfl
  | finished => exact State.moves_ending (.inl rfl) (session.finish_state 0)

theorem Transition.moves {op : Operation} {answer : Answer} (h : Transition c op answer d) :
    (c.state :: route d answer).IsChain State.Moves := by
  cases h with
  | launched => exact launched_moves ..
  | refused | overlooked | passed => exact .cons_cons (.inl rfl) (.singleton _)
  | unloaded | misconfigured => exact .cons_cons (State.moves_unset _) (.singleton _)
  | configured | reset => exact .cons_cons (State.moves_ready _) (.singleton _)
  | ticked way => exact .cons_cons way.moves (.singleton _)
  | silenced live => exact .cons_cons (State.moves_ending live (.inr rfl)) (.singleton _)
  | stopped live =>
    exact .cons_cons (State.moves_ending live (Session.finish_state _ _)) (.singleton _)
  | spoken => exact .cons_cons (afterEndMessage_moves _ _) (.singleton _)
  | begun | paused | resumed | chimed => exact .cons_cons (.inr (.head _)) (.singleton _)

/-- What is refused, other than settings, leaves everything as it was. -/
theorem perform_error {c : Countdown} {op : Operation} {refusal : Refusal}
    (hvalue : (c.perform op).value = .error refusal)
    (hcause : ∀ cause, refusal ≠ .badSettings cause) :
    (c.perform op).countdown = c ∧ (c.perform op).changes = [] := by
  have transition := perform_transition c op
  rw [hvalue] at transition
  have hkept : (c.perform op).countdown = c := by
    rcases transition.of_error with hkept | ⟨-, -, cause, -, hbad⟩
    · exact hkept
    · exact absurd hbad (hcause cause)
  refine ⟨hkept, ?_⟩
  rw [perform_changes, hkept, hvalue]
  simp [route, changesAlong]

end SpokenCountdown.Countdown
