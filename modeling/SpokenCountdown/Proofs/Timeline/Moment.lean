import SpokenCountdown.Proofs.Timeline.InStep

/-!
# Enough events

At one moment the events that follow each other go down in `rank`, and between
two ticks time goes by. So the number of events that letting time pass allows for
is never used up: as long as an event is due, it is handled (`runTo_of_due`).
-/

namespace SpokenCountdown

open Countdown

namespace Countdown

/-- How many events can still follow at the same moment, unless it is time for a tick. -/
def rank : Countdown → Nat
  | .loaded _ .starting => 1
  | .loaded _ (.ended _) => 2
  | .loaded _ (.ending _ .chiming) => 3
  | .loaded _ (.ending _ .speaking) => 4
  | _ => 0

section
variable {c : Countdown} {kind : WaitKind}

theorem rank_le (c : Countdown) : c.rank ≤ 4 := by
  rcases c with _ | ⟨session, _ | _ | _ | _ | ⟨_, _ | _⟩ | _⟩ <;> simp [rank]

theorem rank_launched (session : Session) (now : Nat) :
    (loaded session (session.launched now)).rank ≤ 1 := by
  unfold Session.launched
  split <;> simp [rank, Session.startedAt]

theorem rank_afterEndMessage (session : Session) (remaining : Nat) :
    (loaded session (session.afterEndMessage remaining).1).rank ≤ 3 := by
  unfold Session.afterEndMessage
  split <;> simp [rank]

theorem perform_rank_lt (h : c.awaited = some kind) (now : Nat) :
    (c.perform (kind.operation now)).countdown.rank < c.rank := by
  rcases c with _ | ⟨session, _ | _ | _ | _ | ⟨remaining, _ | _⟩ | remaining⟩
  case loaded.starting => cases h; exact Nat.zero_lt_one
  case loaded.ending.speaking =>
    cases h
    exact Nat.lt_succ_of_le (rank_afterEndMessage session remaining)
  case loaded.ending.chiming => cases h; exact Nat.lt_succ_self 2
  case loaded.ended =>
    obtain rfl := kind_of_ended rfl h
    have hlast : ((loaded session (.ended remaining)).autoRestart now).countdown =
        loaded session (session.launched now) := relaunch_countdown ..
    exact Nat.lt_succ_of_le (hlast ▸ rank_launched session now)
  all_goals cases h

end

end Countdown

namespace Timeline

def rank (t : Timeline) : Nat :=
  if t.countdown.state = .running ∧ t.nextTick ≤ t.now then 5 else t.countdown.rank

/-- A bound for the events up to a horizon. -/
def ahead (t : Timeline) (horizon : Nat) : Nat :=
  t.rank + 5 * (horizon - t.now)

section
variable {t : Timeline} {time horizon : Nat} {event : Event} {kind : WaitKind}

theorem rank_le (t : Timeline) : t.rank ≤ 5 := by
  have h := t.countdown.rank_le
  unfold rank
  split <;> omega

-- ---------------------------------------------------------------------------
-- The next tick
-- ---------------------------------------------------------------------------

def Paced (t : Timeline) : Prop :=
  t.countdown.state = .running → t.nextTick = t.now + t.period

theorem restartTicks_paced (t : Timeline) : t.restartTicks.Paced :=
  fun _ => rfl

theorem Paced.say (h : t.Paced) (text : String) (rate : Binary) : (t.say text rate).Paced := by
  unfold Timeline.say
  split <;> exact h

theorem Paced.followEnd (h : t.Paced) (step : EndStep) : (t.followEnd step).Paced := by
  rcases step with message | _ | ⟨_ | delay⟩
  · exact h.say message Rate.normal
  · simp only [Timeline.followEnd, playChime]
    split <;> exact h
  · exact h
  · exact h

theorem onTick_paced (t : Timeline) : t.onTick.Paced := by
  have restarted := restartTicks_paced (t.moved (t.countdown.tick t.instant))
  simp only [onTick]
  cases (t.countdown.tick t.instant).value with
  | idle => exact restarted
  | announce a => exact restarted.say a.message a.rate
  | finished step => exact restarted.followEnd step

theorem followStart_paced (plan : StartPlan) (h : t.countdown.state = .running → plan = .running) :
    (t.followStart plan).Paced := by
  intro running
  have hcountdown : (t.followStart plan).countdown = t.countdown :=
    congrArg (·.2.2.2) (t.followStart_setting plan)
  obtain rfl := h (hcountdown ▸ running)
  rfl

theorem launched_running {session : Session} {now : Nat}
    (h : (session.launched now).state = .running) : (session.launch now).2 = .running := by
  unfold Session.launched at h
  split at h
  · cases h
  · rw [Session.launch, if_neg ‹_›]

theorem onWaitOver_paced (h : t.countdown.awaited = some kind) : (t.onWaitOver kind).Paced := by
  obtain ⟨gateways, now, c, wait, nextTick, answered, closed, journal⟩ := t
  rcases c with _ | ⟨session, _ | _ | _ | _ | ⟨remaining, _ | _⟩ | remaining⟩
  case loaded.starting => cases h; exact restartTicks_paced _
  case loaded.ending.speaking =>
    cases h
    refine Paced.followEnd (fun running => ?_) _
    revert running
    show (session.afterEndMessage remaining).1.state = .running → _
    unfold Session.afterEndMessage
    split <;> nofun
  case loaded.ending.chiming =>
    cases h
    refine Paced.followEnd (fun running => ?_) _
    cases running
  case loaded.ended =>
    obtain rfl := kind_of_ended rfl h
    have hlast := relaunch_countdown (.loaded session (.ended remaining)) session (now * 1000)
    refine followStart_paced _ fun running => launched_running ?_
    exact (congrArg Countdown.state hlast).symm.trans running
  all_goals cases h

theorem InStep.handle (h : t.InStep) (upcoming : t.upcoming = some (time, event)) :
    (t.handle time event).InStep := by
  rw [handle_after upcoming]
  exact h.after _

theorem InStep.handle_paced (h : t.InStep) (upcoming : t.upcoming = some (time, event)) :
    (t.handle time event).Paced := by
  cases event with
  | tick => exact onTick_paced _
  | waitOver kind =>
    obtain ⟨-, wait, hwait, rfl, -⟩ := upcoming_waitOver upcoming
    exact onWaitOver_paced (h.awaited_eq hwait)

theorem InStep.period_pos (h : t.InStep) : 0 < t.period := by
  unfold period
  split
  · rename_i session run hcountdown
    exact h.ticking session (by rw [hcountdown]; rfl)
  · decide

-- ---------------------------------------------------------------------------
-- Down and on
-- ---------------------------------------------------------------------------

theorem InStep.rank_eq (h : t.InStep) (paced : t.Paced) : t.rank = t.countdown.rank := by
  have hperiod := h.period_pos
  refine if_neg fun ⟨running, due⟩ => ?_
  have hnext := paced running
  omega

theorem InStep.handle_rank_lt (h : t.InStep) (upcoming : t.upcoming = some (time, event))
    (hnow : time ≤ t.now) : (t.handle time event).rank < t.rank := by
  rw [(h.handle upcoming).rank_eq (h.handle_paced upcoming)]
  cases event with
  | tick =>
    obtain ⟨-, running, rfl⟩ := upcoming_tick upcoming
    have hle := (t.handle t.nextTick .tick).countdown.rank_le
    have hrank : t.rank = 5 := if_pos ⟨running, hnow⟩
    omega
  | waitOver kind =>
    obtain ⟨-, wait, hwait, rfl, -⟩ := upcoming_waitOver upcoming
    have hrank : t.rank = t.countdown.rank := by
      refine if_neg fun ⟨running, _⟩ => ?_
      cases (h.wait_of_running running).symm.trans hwait
    rw [hrank, Timeline.handle, (onWaitOver_reacts _ wait.kind).countdown]
    exact perform_rank_lt (h.awaited_eq hwait) _

theorem InStep.handle_ahead_lt (h : t.InStep) (upcoming : t.upcoming = some (time, event))
    (hnow : t.now ≤ horizon) (hdue : time ≤ horizon) :
    (t.handle time event).ahead horizon < t.ahead horizon := by
  have hlater := t.handle_now time event
  unfold ahead
  -- a millisecond that goes by makes up for the highest rank
  by_cases hsame : time ≤ t.now
  · have hlt := h.handle_rank_lt upcoming hsame
    rw [hlater, Nat.max_eq_left hsame]
    omega
  · have hrank := (h.handle upcoming).rank_eq (h.handle_paced upcoming)
    have hle := (t.handle time event).countdown.rank_le
    omega

-- ---------------------------------------------------------------------------
-- Letting time pass
-- ---------------------------------------------------------------------------

theorem InStep.run_eq {fuel more : Nat} (h : t.InStep) (hnow : t.now ≤ horizon)
    (hfuel : t.ahead horizon ≤ fuel) (hmore : t.ahead horizon ≤ more) :
    run horizon fuel t = run horizon more t := by
  -- an event takes one from either number, and at least one from what is ahead
  induction fuel generalizing t more with
  | zero =>
    have hnot : ¬ t.Due horizon := by
      rintro ⟨time, event, upcoming, hdue⟩
      have hlt := h.handle_ahead_lt upcoming hnow hdue
      omega
    rw [run_of_not_due hnot, run_of_not_due hnot]
  | succ fuel ih =>
    by_cases hdue : t.Due horizon
    · obtain ⟨time, event, upcoming, hdue⟩ := hdue
      have hlt := h.handle_ahead_lt upcoming hnow hdue
      have hlater := t.handle_now time event
      obtain ⟨more, rfl⟩ : ∃ n, more = n + 1 := ⟨more - 1, by omega⟩
      rw [run_of_due upcoming hdue, run_of_due upcoming hdue]
      exact ih (h.handle upcoming) (by omega) (by omega) (by omega)
    · rw [run_of_not_due hdue, run_of_not_due hdue]

theorem ahead_le_eventBound (hnow : t.now ≤ horizon) :
    t.ahead horizon ≤ t.eventBound horizon := by
  have hle := t.rank_le
  unfold ahead eventBound
  omega

theorem InStep.runTo_of_due (h : t.InStep) (upcoming : t.upcoming = some (time, event))
    (hnow : t.now ≤ horizon) (hdue : time ≤ horizon) :
    t.runTo horizon = (t.handle time event).runTo horizon := by
  have hlt := h.handle_ahead_lt upcoming hnow hdue
  have hbound := ahead_le_eventBound hnow
  have hlater := t.handle_now time event
  have hmax : max (t.handle time event).now horizon = max t.now horizon := by omega
  obtain ⟨fuel, hfuel⟩ : ∃ n, t.eventBound horizon = n + 1 := ⟨t.eventBound horizon - 1, by omega⟩
  have hrest : run horizon fuel (t.handle time event) =
      run horizon ((t.handle time event).eventBound horizon) (t.handle time event) :=
    (h.handle upcoming).run_eq (by omega) (by omega) (ahead_le_eventBound (by omega))
  rw [runTo, runTo, hfuel, run_of_due upcoming hdue, hrest, hmax]

theorem InStep.runTo_not_due (h : t.InStep) (hnow : t.now ≤ horizon) :
    ¬ (t.runTo horizon).Due horizon := by
  -- the number of events that can be ahead goes down
  generalize hn : t.ahead horizon = n
  induction n using Nat.strongRecOn generalizing t with
  | ind n ih =>
    by_cases hdue : t.Due horizon
    · obtain ⟨time, event, upcoming, hle⟩ := hdue
      have hlater := t.handle_now time event
      have hlt := h.handle_ahead_lt upcoming hnow hle
      rw [h.runTo_of_due upcoming hnow hle]
      exact ih _ (hn ▸ hlt) (h.handle upcoming) (by omega) rfl
    · rw [runTo_of_not_due hdue]
      exact hdue

end

end Timeline

end SpokenCountdown
