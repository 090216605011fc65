import SpokenCountdown.Proofs.Countdown.Transition
import SpokenCountdown.Proofs.Timeline.Occurrence

/-!
# The wait keeps in step with the countdown

A timeline waits for what its countdown has asked for and for nothing else: the
kind of the wait is the one its countdown awaits, except that an ended countdown
need not be waited for, since a command or a silent stop calls its restart off.
So the end of a wait always finds the countdown where the wait left it.
-/

namespace SpokenCountdown

open Countdown

theorem Settings.session_tick {settings : Settings} {session : Session}
    (h : settings.session = .ok session) : 1 ≤ session.tick := by
  unfold Settings.session at h
  split at h
  · cases h
  split at h
  · cases h
  cases h
  exact Nat.le_max_right ..

theorem WaitKind.operation_ne_tick (kind : WaitKind) (now time : Nat) :
    kind.operation now ≠ .tick time := by
  cases kind <;> nofun

theorem exists_of_map_eq_ok {x : Except ε α} {f : α → β} {b : β} (h : x.map f = .ok b) :
    ∃ a, x = .ok a ∧ b = f a := by
  cases x with
  | error => cases h
  | ok a => exact ⟨a, rfl, (Except.ok.inj h).symm⟩

namespace Countdown

def FromSettings (c : Countdown) : Prop :=
  ∀ session ∈ c.session?, ∃ settings : Settings, settings.session = .ok session

theorem unset_fromSettings : unset.FromSettings := by
  rintro session ⟨⟩

def awaited : Countdown → Option WaitKind
  | .loaded _ .starting => some .startMessage
  | .loaded _ (.ending _ .speaking) => some .endMessage
  | .loaded _ (.ending _ .chiming) => some .chime
  | .loaded session (.ended _) => session.autoRestart.map fun _ => .autoRestart
  | _ => none

def StartPlan.awaited : StartPlan → Option WaitKind
  | .speak _ => some .startMessage
  | .running => none

def EndStep.awaited : EndStep → Option WaitKind
  | .speak _ => some .endMessage
  | .chime => some .chime
  | .done delay => delay.map fun _ => .autoRestart

def Reply.awaited : Reply → Option WaitKind
  | .started plan => plan.awaited
  | .ticked (.finished step) | .stopped step | .advanced (some step) => step.awaited
  | _ => none

section
variable {c d : Countdown} {op : Operation} {reply : Reply} {session : Session}
  {kind : WaitKind} {remaining now : Nat}

theorem relaunch_countdown (c : Countdown) (session : Session) (now : Nat) :
    (c.relaunch session now).countdown = .loaded session (session.launched now) := by
  simp [relaunch, visit, List.getLast?_cons, session.getLast_launch]

theorem launched_awaited (session : Session) (now : Nat) :
    (loaded session (session.launched now)).awaited = (session.launch now).2.awaited := by
  unfold Session.launched Session.launch
  split <;> rfl

theorem afterEndMessage_awaited (session : Session) (remaining : Nat) :
    (loaded session (session.afterEndMessage remaining).1).awaited =
      (session.afterEndMessage remaining).2.awaited := by
  unfold Session.afterEndMessage
  split <;> rfl

theorem finish_awaited (session : Session) (remaining : Nat) :
    (loaded session (session.finish remaining).1).awaited =
      (session.finish remaining).2.awaited := by
  unfold Session.finish
  split
  · rfl
  · exact afterEndMessage_awaited session remaining

theorem Ticked.awaited {anchor : Nat} {queue : Queue} {outcome : TickOutcome} {run : Run}
    (h : Ticked session anchor remaining queue outcome run) :
    (loaded session run).awaited = (Reply.ticked outcome).awaited := by
  cases h with
  | finished => exact finish_awaited ..
  | waited | announced => rfl

theorem Transition.awaited (h : Transition c op (.ok reply) d) :
    d.awaited = reply.awaited ∨ (d.state = .ended ∧ reply.awaited = none) ∨
      (d = c ∧ (reply = .advanced none ∨ c.state ≠ .running ∧ ∃ now, op = .tick now)) := by
  cases h with
  | overlooked notRunning => exact .inr (.inr ⟨rfl, .inr ⟨notRunning, _, rfl⟩⟩)
  | passed => exact .inr (.inr ⟨rfl, .inl rfl⟩)
  | silenced => exact .inr (.inl ⟨rfl, rfl⟩)
  | launched => exact .inl (launched_awaited ..)
  | stopped => exact .inl (finish_awaited ..)
  | spoken => exact .inl (afterEndMessage_awaited ..)
  | ticked way => exact .inl way.awaited
  | unloaded | configured | reset | begun | paused | resumed | chimed => exact .inl rfl

theorem Transition.fromSettings {answer : Answer} (h : Transition c op answer d)
    (hc : c.FromSettings) : d.FromSettings := by
  cases h with
  | unloaded | misconfigured => exact unset_fromSettings
  | configured valid =>
    rintro session ⟨⟩
    exact ⟨_, valid⟩
  | _ => exact hc

theorem awaited_startMessage_iff : c.awaited = some .startMessage ↔ c.state = .starting := by
  rcases c with _ | ⟨session, _ | _ | _ | _ | ⟨_, _ | _⟩ | _⟩ <;>
    simp [Countdown.awaited, state, Run.state]

theorem awaited_endMessage_iff :
    c.awaited = some .endMessage ↔ c.state = .ending ∧ c.ending? = some .speaking := by
  rcases c with _ | ⟨session, _ | _ | _ | _ | ⟨_, _ | _⟩ | _⟩ <;>
    simp [Countdown.awaited, state, Run.state, ending?, Run.ending?]

theorem awaited_chime_iff :
    c.awaited = some .chime ↔ c.state = .ending ∧ c.ending? = some .chiming := by
  rcases c with _ | ⟨session, _ | _ | _ | _ | ⟨_, _ | _⟩ | _⟩ <;>
    simp [Countdown.awaited, state, Run.state, ending?, Run.ending?]

theorem awaited_autoRestart_iff :
    c.awaited = some .autoRestart ↔
      c.state = .ended ∧ ∃ session ∈ c.session?, session.autoRestart.isSome := by
  rcases c with _ | ⟨session, _ | _ | _ | _ | ⟨_, _ | _⟩ | _⟩ <;>
    simp [Countdown.awaited, state, Run.state, session?, Option.isSome_iff_exists]

theorem awaited_isSome (h : c.state = .starting ∨ c.state = .ending) : c.awaited.isSome := by
  rcases c with _ | ⟨session, _ | _ | _ | _ | ⟨_, _ | _⟩ | _⟩ <;>
    simp_all [Countdown.awaited, state, Run.state]

theorem awaited_eq_none (h : c.state = .unset ∨ c.state = .ready ∨ c.state = .running ∨
    c.state = .paused) : c.awaited = none := by
  rcases c with _ | ⟨session, _ | _ | _ | _ | ⟨_, _ | _⟩ | _⟩ <;>
    simp_all [Countdown.awaited, state, Run.state]

theorem kind_of_ended (ended : c.state = .ended) (h : c.awaited = some kind) :
    kind = .autoRestart := by
  rcases c with _ | ⟨session, _ | _ | _ | _ | _ | _⟩ <;> cases ended
  obtain ⟨delay, -, rfl⟩ := Option.map_eq_some_iff.mp h
  rfl

theorem perform_awaited (h : c.awaited = some kind) (now : Nat) :
    ∃ reply, (c.perform (kind.operation now)).value = .ok reply ∧ reply ≠ .advanced none := by
  rcases c with _ | ⟨session, _ | _ | _ | _ | ⟨remaining, _ | _⟩ | remaining⟩
  case loaded.starting => cases h; exact ⟨_, rfl, nofun⟩
  case loaded.ending.speaking => cases h; exact ⟨_, rfl, nofun⟩
  case loaded.ending.chiming => cases h; exact ⟨_, rfl, nofun⟩
  case loaded.ended =>
    obtain ⟨delay, -, rfl⟩ := Option.map_eq_some_iff.mp h
    exact ⟨_, rfl, nofun⟩
  all_goals cases h

theorem advanceEnding_awaited (h : c.awaited = some .endMessage ∨ c.awaited = some .chime) :
    ∃ step, c.advanceEnding.value = some step := by
  have hending : c.state = .ending := by
    rcases h with h | h
    · exact (awaited_endMessage_iff.mp h).1
    · exact (awaited_chime_iff.mp h).1
  rcases c with _ | ⟨session, _ | _ | _ | _ | ⟨remaining, _ | _⟩ | _⟩ <;> cases hending
  · exact ⟨_, rfl⟩
  · exact ⟨_, rfl⟩

theorem configure_badSettings {settings : Settings} {cause : SettingsError}
    (h : (c.perform (.configure settings)).value = .error (.badSettings cause)) :
    c.awaited = none ∨ c.state = .ended := by
  rcases c with _ | ⟨session, _ | _ | _ | _ | _ | _⟩
  case loaded.starting => exact nomatch h
  case loaded.ending => exact nomatch h
  case loaded.ended => exact .inr rfl
  all_goals exact .inl rfl

end

end Countdown

namespace Timeline

def awaits (t : Timeline) : Option WaitKind :=
  t.wait.map (·.kind)

structure InStep (t : Timeline) : Prop where
  sound : t.countdown.Sound
  origin : t.countdown.FromSettings
  awaiting : t.awaits = t.countdown.awaited ∨ (t.countdown.state = .ended ∧ t.wait = none)

section
variable {t u : Timeline} {op : Operation} {wait : Wait} {command : Command}

-- ---------------------------------------------------------------------------
-- Answers
-- ---------------------------------------------------------------------------

theorem sayAndWait_awaits (t : Timeline) (kind : WaitKind) (text : String) :
    (t.sayAndWait kind text).awaits = some kind := by
  simp only [sayAndWait, awaits, Option.map_some]
  split <;> rfl

theorem followStart_awaits (h : t.wait = none) (plan : StartPlan) :
    (t.followStart plan).awaits = plan.awaited := by
  cases plan with
  | speak message => exact t.sayAndWait_awaits .startMessage message
  | running => exact congrArg (Option.map _) h

theorem followEnd_awaits (h : t.wait = none) (step : EndStep) :
    (t.followEnd step).awaits = step.awaited := by
  rcases step with message | _ | ⟨_ | delay⟩
  · exact t.sayAndWait_awaits .endMessage message
  · rfl
  · exact congrArg (Option.map _) h
  · rfl

theorem respond_awaits (h : t.wait = none) (reply : Reply) :
    (t.respond (.ok reply)).awaits = reply.awaited := by
  rcases reply with _ | plan | (_ | a | step) | step | (_ | step)
  case started => exact followStart_awaits rfl plan
  case ticked.finished => exact followEnd_awaits h step
  case stopped => exact followEnd_awaits rfl step
  case advanced.some => exact followEnd_awaits rfl step
  case ticked.announce =>
    simp only [respond, say, awaits]
    split <;> simp [record, h, Reply.awaited]
  all_goals simp [respond, awaits, h, Reply.awaited]

-- ---------------------------------------------------------------------------
-- One occurrence
-- ---------------------------------------------------------------------------

theorem InStep.start (gateways : Gateways) : InStep { gateways } :=
  ⟨unset_sound, unset_fromSettings, .inl rfl⟩

theorem InStep.ticking (h : t.InStep) : ∀ session ∈ t.countdown.session?, 1 ≤ session.tick := by
  intro session hsession
  obtain ⟨settings, hsettings⟩ := h.origin session hsession
  exact Settings.session_tick hsettings

theorem InStep.wait_eq_none (h : t.InStep) (hc : t.countdown.awaited = none) : t.wait = none := by
  rcases h.awaiting with hawaits | ⟨-, hwait⟩
  · exact Option.map_eq_none_iff.mp (hawaits.trans hc)
  · exact hwait

theorem InStep.wait_of_running (h : t.InStep) (running : t.countdown.state = .running) :
    t.wait = none :=
  h.wait_eq_none (awaited_eq_none (.inr (.inr (.inl running))))

theorem InStep.awaited_eq (h : t.InStep) (hwait : t.wait = some wait) :
    t.countdown.awaited = some wait.kind := by
  rcases h.awaiting with hawaits | ⟨-, hnone⟩
  · rw [← hawaits, awaits, hwait, Option.map_some]
  · simp [hwait] at hnone

theorem InStep.react (hsound : t.countdown.Sound)
    (horigin : t.countdown.FromSettings) (hwait : t.wait = none)
    {reply : Reply} (hreply : (t.countdown.perform op).value = .ok reply)
    (hpassive : reply ≠ .advanced none) (hop : ∀ now, op = .tick now → t.countdown.state = .running)
    (reacts : t.Reacts op u) : u.InStep := by
  have transition := perform_transition t.countdown op
  have hcountdown := reacts.countdown
  have hawaits : u.awaits = reply.awaited := by
    obtain ⟨next, rfl⟩ := reacts
    simp only [Timeline.react, hreply]
    exact respond_awaits (t := t.moved _) hwait reply
  rw [hreply, ← hcountdown] at transition
  refine ⟨transition.sound hsound, transition.fromSettings horigin, ?_⟩
  rcases transition.awaited with same | ⟨ended, none⟩ | ⟨-, passed | ⟨notRunning, now, tick⟩⟩
  · exact .inl (hawaits.trans same.symm)
  · exact .inr ⟨ended, Option.map_eq_none_iff.mp (hawaits.trans none)⟩
  · exact absurd passed hpassive
  · exact absurd (hop now tick) notRunning

theorem respond_command {reply : Reply} {c : Countdown} {now : Nat}
    (h : (c.perform (command.operation now)).value = .ok reply) (t : Timeline)
    (wait : Option Wait) : { t with wait }.respond (.ok reply) = t.respond (.ok reply) := by
  cases command <;> obtain ⟨value, -, rfl⟩ := exists_of_map_eq_ok h <;> rfl

theorem InStep.addressed_wait_of_ended (h : t.InStep) (ended : t.countdown.state = .ended) :
    t.addressed.wait = none := by
  rw [addressed_wait]
  cases hw : t.wait with
  | none => rfl
  | some wait => simp [kind_of_ended ended (h.awaited_eq hw)]

theorem InStep.refused (h : t.InStep) (hcountdown : u.countdown = t.countdown)
    (hwait : u.wait = t.addressed.wait) : u.InStep := by
  refine ⟨hcountdown ▸ h.sound, hcountdown ▸ h.origin, ?_⟩
  rw [awaits, hwait, addressed_wait, hcountdown]
  cases hw : t.wait with
  | none => exact h.awaiting.imp (by simp [awaits, hw]) (by simp [hw])
  | some wait =>
    have hkind := h.awaited_eq hw
    by_cases hrestart : wait.kind = .autoRestart
    · exact .inr ⟨(awaited_autoRestart_iff.mp (hrestart ▸ hkind)).1, by simp [hrestart]⟩
    · exact .inl (by simp [hrestart, hkind])

theorem InStep.commanded (h : t.InStep)
    (reacts : t.addressed.Reacts (command.operation t.addressed.instant) u) : u.InStep := by
  generalize t.addressed.instant = now at reacts
  have hsame := t.addressed_countdown
  have hsound : t.addressed.countdown.Sound := hsame ▸ h.sound
  have hcountdown := reacts.countdown
  have transition := perform_transition t.addressed.countdown (command.operation now)
  cases hvalue : (t.addressed.countdown.perform (command.operation now)).value with
  | ok reply =>
    -- the same reply follows if there was no wait
    refine .react (t := { t.addressed with wait := none }) hsound (hsame ▸ h.origin) rfl hvalue
      ?_ ?_ ?_
    · rintro rfl
      cases command <;> obtain ⟨_, -, h⟩ := exists_of_map_eq_ok hvalue <;> cases h
    · intro time htick
      cases command <;> cases htick
    · obtain ⟨next, rfl⟩ := reacts
      refine ⟨next, ?_⟩
      simp only [Timeline.react, hvalue]
      rw [← respond_command hvalue (t.addressed.moved _) none]
      rfl
  | error refusal =>
    have hwait : u.wait = t.addressed.wait := reacts.wait_of_error hvalue
    rw [hvalue, ← hcountdown] at transition
    rcases transition.of_error with hkept | ⟨hunset, settings, cause, hop, rfl⟩
    · exact h.refused (hkept.trans hsame) hwait
    · have hnone : t.addressed.wait = none := by
        rw [hop, hsame] at hvalue
        rcases configure_badSettings hvalue with hnone | hended
        · simp [addressed_wait, h.wait_eq_none hnone]
        · exact h.addressed_wait_of_ended hended
      refine ⟨hunset ▸ unset_sound, hunset ▸ unset_fromSettings, .inl ?_⟩
      rw [hunset, awaits, hwait, hnone]
      rfl

theorem InStep.awaited_of_awaits {kind : WaitKind} (h : t.InStep) (hawaits : t.awaits = some kind) :
    t.countdown.awaited = some kind := by
  obtain ⟨wait, hwait, rfl⟩ := Option.map_eq_some_iff.mp hawaits
  exact h.awaited_eq hwait

/-- Only the restart of an ended countdown may be awaited and not waited for. -/
theorem InStep.awaits_iff (h : t.InStep) (kind : WaitKind) (hkind : kind ≠ .autoRestart) :
    t.awaits = some kind ↔ t.countdown.awaited = some kind := by
  refine ⟨h.awaited_of_awaits, fun hawaited => ?_⟩
  rcases h.awaiting with same | ⟨ended, -⟩
  · rw [same, hawaited]
  · exact absurd (kind_of_ended ended hawaited) hkind

theorem InStep.turn (h : t.InStep) (turn : Turn t u) : u.InStep := by
  cases turn with
  | idle countdown _ _ wait =>
    refine ⟨countdown ▸ h.sound, countdown ▸ h.origin, ?_⟩
    rw [awaits, wait, countdown]
    refine h.awaiting.imp_right fun ⟨ended, hnone⟩ => ⟨ended, ?_⟩
    simpa [hnone] using wait
  | commanded reacts => exact h.commanded reacts
  | ticked running reacts =>
    obtain ⟨outcome, houtcome⟩ : ∃ outcome, (t.countdown.perform (.tick t.instant)).value =
      .ok (.ticked outcome) := ⟨_, rfl⟩
    exact .react h.sound h.origin (h.wait_of_running running) houtcome nofun
      (fun _ _ => running) reacts
  | @waited wait _ pending reacts =>
    obtain ⟨reply, hreply, hpassive⟩ := perform_awaited (h.awaited_eq pending) t.instant
    refine .react (t := { t with wait := none }) h.sound h.origin rfl hreply hpassive
      (fun now hop => ?_) reacts
    exact absurd hop (wait.kind.operation_ne_tick _ _)
  | @dropped u reacts =>
    have hunset : u.countdown = .unset := reacts.countdown
    obtain ⟨next, rfl⟩ := reacts
    exact ⟨hunset ▸ unset_sound, hunset ▸ unset_fromSettings, .inl (hunset ▸ rfl)⟩

theorem InStep.after (h : t.InStep) (history : List Occurrence) : (t.after history).InStep := by
  induction history generalizing t with
  | nil => exact h
  | cons o rest ih => exact ih (h.turn (t.happen_turn o))

-- ---------------------------------------------------------------------------
-- Every history
-- ---------------------------------------------------------------------------

theorem apply_accepted {step : Step (Except Refusal α)} {follow : Timeline → α → Timeline}
    {state : State} (h : (t.apply step follow).2 = .ok state) (wait : Option Wait) :
    { t with wait }.apply step follow = t.apply step follow := by
  cases hvalue : step.value with
  | error refusal => simp [apply, hvalue] at h
  | ok value =>
    simp only [apply, hvalue]
    rfl

/-- A command that is accepted goes as it would without a wait: nothing that was
waited for before it can be heard of after it. -/
theorem perform_accepted {state : State} (h : (t.perform command).2 = .ok state)
    (wait : Option Wait) : { t with wait }.perform command = t.perform command := by
  obtain hclosed | hopen := Bool.eq_false_or_eq_true t.closed
  · simp [perform, hclosed] at h
  · have haddressed : addressed { t with wait } =
        { t.addressed with wait := wait.filter (·.kind ≠ .autoRestart) } := by
      rw [addressed_eq, addressed_eq]
    rw [perform_eq hopen] at h
    rw [perform_eq hopen, perform_eq (t := { t with wait }) hopen, haddressed]
    cases command <;> exact apply_accepted h _

/-- In every history the wait fits the state, its end is answered, an accepted
command leaves nothing of it, and a countdown that needs a wait has one. -/
theorem wait_in_step (gateways : Gateways) (history : List Occurrence) :
    let t := ({ gateways } : Timeline).after history
    let c := t.countdown
    (t.awaits = some .startMessage ↔ c.state = .starting) ∧
      (t.awaits = some .endMessage ↔ c.state = .ending ∧ c.ending? = some .speaking) ∧
      (t.awaits = some .chime ↔ c.state = .ending ∧ c.ending? = some .chiming) ∧
      (t.awaits = some .autoRestart →
        c.state = .ended ∧ ∃ session ∈ c.session?, session.autoRestart.isSome) ∧
      (c.state = .unset ∨ c.state = .ready ∨ c.state = .running ∨ c.state = .paused →
        t.wait = none) ∧
      (∀ now,
        (t.awaits = some .startMessage → (c.beginRunning now).value = .ok ()) ∧
        (t.awaits = some .endMessage ∨ t.awaits = some .chime →
          ∃ step, c.advanceEnding.value = some step) ∧
        (t.awaits = some .autoRestart → ∃ plan, (c.autoRestart now).value = .ok plan)) ∧
      (∀ command state, (t.perform command).2 = .ok state →
        ∀ wait, { t with wait }.perform command = t.perform command) ∧
      (c.state = .starting ∨ c.state = .ending → t.wait.isSome) := by
  intro t c
  have h : t.InStep := (InStep.start gateways).after history
  refine ⟨?_, ?_, ?_, fun hawaits => ?_, fun hidle => ?_, fun now => ⟨fun hawaits => ?_,
    fun hawaits => ?_, fun hawaits => ?_⟩, fun _ _ => perform_accepted, fun hbusy => ?_⟩
  · exact (h.awaits_iff .startMessage nofun).trans awaited_startMessage_iff
  · exact (h.awaits_iff .endMessage nofun).trans awaited_endMessage_iff
  · exact (h.awaits_iff .chime nofun).trans awaited_chime_iff
  · exact awaited_autoRestart_iff.mp (h.awaited_of_awaits hawaits)
  · exact h.wait_eq_none (awaited_eq_none hidle)
  · obtain ⟨reply, hreply, -⟩ := perform_awaited (h.awaited_of_awaits hawaits) now
    obtain ⟨⟨⟩, hok, -⟩ := exists_of_map_eq_ok hreply
    exact hok
  · exact advanceEnding_awaited (hawaits.imp h.awaited_of_awaits h.awaited_of_awaits)
  · obtain ⟨reply, hreply, -⟩ := perform_awaited (h.awaited_of_awaits hawaits) now
    obtain ⟨plan, hok, -⟩ := exists_of_map_eq_ok hreply
    exact ⟨plan, hok⟩
  · rcases h.awaiting with same | ⟨ended, -⟩
    · have hsome := awaited_isSome hbusy
      rwa [← same, awaits, Option.isSome_map] at hsome
    · rcases hbusy with hstate | hstate <;> cases ended.symm.trans hstate

end

end Timeline

end SpokenCountdown
