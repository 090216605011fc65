import SpokenCountdown.Proofs.Countdown.Operation
import SpokenCountdown.Proofs.Schedule

/-!
# What one operation can do

`Sound` is what a countdown keeps through every history, and `Transition` lists
the ways in which one operation can go, its guards and its answer included.
`perform_transition` says that there are no others; what a history preserves is
then a case analysis over the list, without the operations themselves.
-/

namespace SpokenCountdown

open Countdown

def Run.Sound (session : Session) : Run → Prop
  | .ready => True
  | .starting => session.sayStart = true
  | .running remaining queue _ => remaining ≤ session.total ∧ queue <:+ session.announcements
  | .paused remaining queue =>
    session.allowPause = true ∧ remaining ≤ session.total ∧ queue <:+ session.announcements
  | .ending remaining .speaking => session.sayEnd = true ∧ remaining ≤ session.total
  | .ending remaining .chiming => session.endChime = true ∧ remaining ≤ session.total
  | .ended remaining => remaining ≤ session.total

theorem Run.Sound.remaining_le {run : Run} (h : run.Sound session) :
    run.remaining session.total ≤ session.total := by
  cases run with
  | ready | starting => exact Nat.le_refl _
  | running => exact h.1
  | paused => exact h.2.1
  | ending remaining phase => cases phase <;> exact h.2
  | ended => exact h

theorem Run.Sound.queue_suffix {run : Run} (h : run.Sound session) :
    run.queue session.announcements <:+ session.announcements := by
  cases run with
  | ready | starting => exact List.suffix_refl _
  | running => exact h.2
  | paused => exact h.2.2
  | ending | ended => exact List.nil_suffix

namespace Session

def launched (session : Session) (now : Nat) : Run :=
  if session.sayStart then .starting else session.startedAt now

theorem getLast_launch (session : Session) (now : Nat) :
    (session.launch now).1.getLast? = some (.loaded session (session.launched now)) := by
  unfold launch launched
  split <;> rfl

theorem launched_sound (session : Session) (now : Nat) :
    (session.launched now).Sound session := by
  unfold launched
  split
  · assumption
  · exact ⟨Nat.le_refl _, List.suffix_refl _⟩

theorem afterEndMessage_sound {session : Session} {remaining : Nat}
    (h : remaining ≤ session.total) : (session.afterEndMessage remaining).1.Sound session := by
  unfold afterEndMessage
  split
  · exact ⟨‹_›, h⟩
  · exact h

theorem finish_sound {session : Session} {remaining : Nat} (h : remaining ≤ session.total) :
    (session.finish remaining).1.Sound session := by
  unfold finish
  split
  · exact ⟨‹_›, h⟩
  · exact afterEndMessage_sound h

theorem finish_state (session : Session) (remaining : Nat) :
    (session.finish remaining).1.state = .ending ∨ (session.finish remaining).1.state = .ended := by
  unfold finish afterEndMessage
  split
  · exact .inl rfl
  · split
    · exact .inl rfl
    · exact .inr rfl

theorem finish_remaining (session : Session) (remaining total : Nat) :
    (session.finish remaining).1.remaining total = remaining := by
  unfold finish afterEndMessage
  split
  · rfl
  · split <;> rfl

end Session

namespace Countdown

def announcements (c : Countdown) : List Announcement :=
  c.session?.elim [] (·.announcements)

def Sound : Countdown → Prop
  | .unset => True
  | .loaded session run => session.Sound ∧ run.Sound session

theorem elapse_le (remaining anchor now : Nat) : (elapse remaining anchor now).1 ≤ remaining :=
  Nat.sub_le _ _

-- ---------------------------------------------------------------------------
-- The list
-- ---------------------------------------------------------------------------

/-- The ways a tick can go that finds `remaining` and `queue` once it has
counted the time. -/
inductive Ticked (session : Session) (anchor : Nat) :
    Nat → Queue → TickOutcome → Run → Prop where
  | waited {remaining : Nat} {queue : Queue} (positive : 0 < remaining)
      (notDue : ∀ a ∈ queue.head?, a.isDue remaining session.earlyFire = false) :
      Ticked session anchor remaining queue .idle (.running remaining queue anchor)
  | announced {remaining : Nat} {a : Announcement} {rest : Queue} (positive : 0 < remaining)
      (due : a.isDue remaining session.earlyFire = true) :
      Ticked session anchor remaining (a :: rest) (.announce a) (.running remaining rest anchor)
  | finished {queue : Queue} :
      Ticked session anchor 0 queue (.finished (session.finish 0).2) (session.finish 0).1

inductive Launches : Run → Operation → Nat → Prop where
  | start {now : Nat} : Launches .ready (.start now) now
  | restartPaused {remaining now : Nat} {queue : Queue} :
      Launches (.paused remaining queue) (.restart now) now
  | restartEnded {remaining now : Nat} : Launches (.ended remaining) (.restart now) now
  | autoRestart {remaining now : Nat} : Launches (.ended remaining) (.autoRestart now) now

inductive Transition : Countdown → Operation → Answer → Countdown → Prop where
  | refused {c : Countdown} {op : Operation} {refusal : Refusal}
      (kept : ∀ cause, refusal ≠ .badSettings cause) : Transition c op (.error refusal) c
  | overlooked {c : Countdown} {now : Nat} (notRunning : c.state ≠ .running) :
      Transition c (.tick now) (.ok (.ticked .idle)) c
  | passed {c : Countdown} (notEnding : c.state ≠ .ending) :
      Transition c .advanceEnding (.ok (.advanced none)) c
  | unloaded {c : Countdown} : Transition c .unload (.ok .done) .unset
  | misconfigured {c : Countdown} {settings : Settings} {cause : SettingsError}
      (invalid : settings.session = .error cause) :
      Transition c (.configure settings) (.error (.badSettings cause)) .unset
  | configured {c : Countdown} {settings : Settings} {session : Session}
      (valid : settings.session = .ok session) :
      Transition c (.configure settings) (.ok .done) (.loaded session .ready)
  | reset {session : Session} {run : Run} {force : Bool} :
      Transition (.loaded session run) (.reset force) (.ok .done) (.loaded session .ready)
  | launched {session : Session} {run : Run} {op : Operation} {now : Nat}
      (launches : Launches run op now) :
      Transition (.loaded session run) op (.ok (.started (session.launch now).2))
        (.loaded session (session.launched now))
  | begun {session : Session} {now : Nat} :
      Transition (.loaded session .starting) (.beginRunning now) (.ok .done)
        (.loaded session (session.startedAt now))
  | ticked {session : Session} {remaining anchor now : Nat} {queue : Queue}
      {outcome : TickOutcome} {run : Run}
      (way : Ticked session (elapse remaining anchor now).2 (elapse remaining anchor now).1 queue
        outcome run) :
      Transition (.loaded session (.running remaining queue anchor)) (.tick now)
        (.ok (.ticked outcome)) (.loaded session run)
  | paused {session : Session} {remaining anchor now : Nat} {queue : Queue}
      (allowed : session.allowPause = true) :
      Transition (.loaded session (.running remaining queue anchor)) (.pause now) (.ok .done)
        (.loaded session (.paused (elapse remaining anchor now).1 queue))
  | resumed {session : Session} {remaining now : Nat} {queue : Queue} :
      Transition (.loaded session (.paused remaining queue)) (.resume now) (.ok .done)
        (.loaded session (.running remaining queue now))
  | silenced {session : Session} {run : Run} (live : run.state = .running ∨ run.state = .paused) :
      Transition (.loaded session run) (.stop true) (.ok (.stopped (.done none)))
        (.loaded session (.ended (run.remaining session.total)))
  | stopped {session : Session} {run : Run} (live : run.state = .running ∨ run.state = .paused) :
      Transition (.loaded session run) (.stop false)
        (.ok (.stopped (session.finish (run.remaining session.total)).2))
        (.loaded session (session.finish (run.remaining session.total)).1)
  | spoken {session : Session} {remaining : Nat} :
      Transition (.loaded session (.ending remaining .speaking)) .advanceEnding
        (.ok (.advanced (some (session.afterEndMessage remaining).2)))
        (.loaded session (session.afterEndMessage remaining).1)
  | chimed {session : Session} {remaining : Nat} :
      Transition (.loaded session (.ending remaining .chiming)) .advanceEnding
        (.ok (.advanced (some (.done session.autoRestart)))) (.loaded session (.ended remaining))

-- ---------------------------------------------------------------------------
-- The list is complete
-- ---------------------------------------------------------------------------

section
variable {session : Session} {run : Run} {op : Operation} {remaining anchor now : Nat}
  {queue : Queue}

theorem Transition.refuse (c : Countdown) (op : Operation) (action : Action) :
    Transition c op (.error (c.refusal action)) c := by
  apply Transition.refused
  intro cause
  unfold refusal
  split <;> nofun

theorem launch_transition (launches : Launches run op now) (before : List Countdown) :
    Transition (.loaded session run) op (.ok (.started (session.launch now).2))
      ((visit (.loaded session run) (before ++ (session.launch now).1)
        (.ok (session.launch now).2 : Except Refusal StartPlan)).countdown) := by
  have last : (visit (.loaded session run) (before ++ (session.launch now).1)
      (.ok (session.launch now).2 : Except Refusal StartPlan)).countdown =
        .loaded session (session.launched now) := by
    simp [visit, List.getLast?_append, session.getLast_launch]
  rw [last]
  exact .launched launches

/-- The queue has the last word: a tick that planned an announcement which the queue
does not find due goes on as if it had planned none. -/
theorem tick_running (session : Session) (remaining : Nat) (queue : Queue) (anchor now : Nat) :
    ∃ outcome run,
      (Countdown.loaded session (.running remaining queue anchor)).tick now =
        visit (.loaded session (.running remaining queue anchor)) [.loaded session run] outcome ∧
      Ticked session (elapse remaining anchor now).2 (elapse remaining anchor now).1 queue
        outcome run := by
  simp only [tick]
  generalize elapse remaining anchor now = counted
  obtain ⟨left, anchor⟩ := counted
  dsimp only
  cases left with
  | zero => exact ⟨_, _, rfl, .finished⟩
  | succ n =>
    cases queue with
    | nil => exact ⟨_, _, rfl, .waited n.succ_pos (by simp)⟩
    | cons a rest =>
      cases hdue : a.isDue (n + 1) session.earlyFire with
      | true =>
        refine ⟨_, _, ?_, .announced n.succ_pos hdue⟩
        simp [planTick, Queue.popDue, Announcement.isPlanned_of_isDue hdue, hdue]
      | false =>
        refine ⟨_, _, ?_, .waited n.succ_pos (by simpa using hdue)⟩
        cases hplan : a.isPlanned (n + 1) session.earlyFire with
        | true => simp [planTick, Queue.popDue, hplan, hdue]
        | false => simp [planTick, hplan]

theorem configure_transition (c : Countdown) (settings : Settings) :
    Transition c (.configure settings) (c.perform (.configure settings)).value
      (c.perform (.configure settings)).countdown := by
  simp only [perform, configure]
  split
  iterate 4
    cases hs : settings.session with
    | ok session => exact .configured hs
    | error cause => exact .misconfigured hs
  exact .refuse ..

theorem reset_transition (c : Countdown) (force : Bool) :
    Transition c (.reset force) (c.perform (.reset force)).value
      (c.perform (.reset force)).countdown := by
  cases c with
  | unset => exact .refuse ..
  | loaded session run =>
    simp only [perform, Countdown.reset]
    split
    · exact .reset
    · exact .refuse ..

theorem stop_transition (c : Countdown) (silent : Bool) :
    Transition c (.stop silent) (c.perform (.stop silent)).value
      (c.perform (.stop silent)).countdown := by
  cases c with
  | unset => exact .refuse ..
  | loaded session run =>
    cases run with
    | running remaining queue anchor =>
      cases silent with
      | true => exact .silenced (.inl rfl)
      | false => exact @Transition.stopped session (.running remaining queue anchor) (.inl rfl)
    | paused remaining queue =>
      cases silent with
      | true => exact .silenced (.inr rfl)
      | false => exact @Transition.stopped session (.paused remaining queue) (.inr rfl)
    | _ => exact .refuse ..

theorem pause_transition (c : Countdown) (now : Nat) :
    Transition c (.pause now) (c.perform (.pause now)).value
      (c.perform (.pause now)).countdown := by
  cases c with
  | unset => exact .refuse ..
  | loaded session run =>
    cases run with
    | running remaining queue anchor =>
      simp only [perform, pause]
      split
      · exact .paused ‹_›
      · exact .refused nofun
    | _ => exact .refuse ..

theorem tick_transition (c : Countdown) (now : Nat) :
    Transition c (.tick now) (c.perform (.tick now)).value (c.perform (.tick now)).countdown := by
  cases c with
  | unset => exact .overlooked nofun
  | loaded session run =>
    cases run with
    | running remaining queue anchor =>
      obtain ⟨outcome, run, htick, way⟩ := tick_running session remaining queue anchor now
      simp only [perform, htick]
      exact .ticked way
    | _ => exact .overlooked nofun

/-- What an operation does is on the list, whatever it is asked. -/
theorem perform_transition (c : Countdown) (op : Operation) :
    Transition c op (c.perform op).value (c.perform op).countdown := by
  cases op with
  | configure settings => exact configure_transition c settings
  | tick now => exact tick_transition c now
  | pause now => exact pause_transition c now
  | stop silent => exact stop_transition c silent
  | reset force => exact reset_transition c force
  | unload => exact .unloaded
  | start now =>
    cases c with
    | unset => exact .refuse ..
    | loaded session run =>
      cases run with
      | ready => exact launch_transition .start []
      | _ => exact .refuse ..
  | beginRunning now =>
    cases c with
    | unset => exact .refuse ..
    | loaded session run =>
      cases run with
      | starting => exact .begun
      | _ => exact .refuse ..
  | resume now =>
    cases c with
    | unset => exact .refuse ..
    | loaded session run =>
      cases run with
      | paused remaining queue => exact .resumed
      | _ => exact .refuse ..
  | advanceEnding =>
    cases c with
    | unset => exact .passed nofun
    | loaded session run =>
      cases run with
      | ending remaining phase =>
        cases phase with
        | speaking => exact .spoken
        | chiming => exact .chimed
      | _ => exact .passed nofun
  | restart now =>
    cases c with
    | unset => exact .refuse ..
    | loaded session run =>
      cases run with
      | paused remaining queue => exact launch_transition .restartPaused [.loaded session .ready]
      | ended remaining => exact launch_transition .restartEnded [.loaded session .ready]
      | _ => exact .refuse ..
  | autoRestart now =>
    cases c with
    | unset => exact .refuse ..
    | loaded session run =>
      cases run with
      | ended remaining => exact launch_transition .autoRestart [.loaded session .ready]
      | _ => exact .refuse ..

-- ---------------------------------------------------------------------------
-- What every history keeps
-- ---------------------------------------------------------------------------

theorem Ticked.of_announce {a : Announcement}
    (h : Ticked session anchor remaining queue (.announce a) run) :
    ∃ rest, queue = a :: rest ∧ run = .running remaining rest anchor ∧ 0 < remaining ∧
      a.isDue remaining session.earlyFire = true := by
  cases h with
  | announced positive due => exact ⟨_, rfl, rfl, positive, due⟩

theorem Ticked.of_idle (h : Ticked session anchor remaining queue .idle run) :
    run = .running remaining queue anchor ∧ 0 < remaining ∧
      ∀ a ∈ queue.head?, a.isDue remaining session.earlyFire = false := by
  cases h with
  | waited positive notDue => exact ⟨rfl, positive, notDue⟩

theorem Ticked.sound (h : Ticked session anchor remaining queue outcome run)
    (hle : remaining ≤ session.total) (hqueue : queue <:+ session.announcements) :
    run.Sound session := by
  cases h with
  | waited => exact ⟨hle, hqueue⟩
  | announced => exact ⟨hle, (List.suffix_cons _ _).trans hqueue⟩
  | finished => exact Session.finish_sound (Nat.zero_le _)

theorem Transition.sound (h : Transition c op answer d) (hc : c.Sound) : d.Sound := by
  cases h with
  | refused | overlooked | passed => exact hc
  | unloaded | misconfigured => trivial
  | configured valid => exact ⟨Settings.session_sound valid, trivial⟩
  | reset => exact ⟨hc.1, trivial⟩
  | launched => exact ⟨hc.1, Session.launched_sound ..⟩
  | begun => exact ⟨hc.1, Nat.le_refl _, List.suffix_refl _⟩
  | ticked way => exact ⟨hc.1, way.sound (Nat.le_trans (elapse_le ..) hc.2.1) hc.2.2⟩
  | paused allowed =>
    exact ⟨hc.1, allowed, Nat.le_trans (elapse_le ..) hc.2.1, hc.2.2⟩
  | resumed => exact ⟨hc.1, hc.2.2⟩
  | silenced => exact ⟨hc.1, hc.2.remaining_le⟩
  | stopped => exact ⟨hc.1, Session.finish_sound (hc.2.remaining_le)⟩
  | spoken => exact ⟨hc.1, Session.afterEndMessage_sound hc.2.2⟩
  | chimed => exact ⟨hc.1, hc.2.2⟩

theorem Transition.of_error {refusal : Refusal} (h : Transition c op (.error refusal) d) :
    d = c ∨ (d = .unset ∧ ∃ settings cause,
      op = .configure settings ∧ refusal = .badSettings cause) := by
  cases h with
  | refused => exact .inl rfl
  | misconfigured => exact .inr ⟨rfl, _, _, rfl, rfl⟩

theorem unset_sound : Countdown.unset.Sound := trivial

theorem Sound.perform {c : Countdown} (h : c.Sound) (op : Operation) :
    (c.perform op).countdown.Sound :=
  (perform_transition c op).sound h

theorem Sound.after {c : Countdown} (h : c.Sound) (history : List Operation) :
    (c.after history).Sound := by
  induction history generalizing c with
  | nil => exact h
  | cons op rest ih => exact ih (h.perform op)

end

end Countdown

end SpokenCountdown
