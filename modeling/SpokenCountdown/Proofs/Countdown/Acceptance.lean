import SpokenCountdown.Proofs.Countdown.Coherence
import SpokenCountdown.Proofs.Countdown.Route

/-!
# What is carried out and what is refused

Whether an operation is carried out depends on the state, for two of them also
on the session or the settings: `Accepts`. An operation is carried out as a whole
or not at all. What is refused leaves all fields as they were, but for settings
that make no session, which unload the countdown: `accepted_or_untouched`.
-/

namespace SpokenCountdown

open Countdown

namespace Countdown

def Operation.Suits : Operation → State → Prop
  | .configure _, s => s = .unset ∨ s = .ready ∨ s = .paused ∨ s = .ended
  | .start _, s => s = .ready
  | .beginRunning _, s => s = .starting
  | .pause _, s => s = .running
  | .resume _, s => s = .paused
  | .stop _, s => s = .running ∨ s = .paused
  | .reset force, s => s = .paused ∨ s = .ended ∨ (force = true ∧ s ≠ .unset)
  | .restart _, s => s = .paused ∨ s = .ended
  | .autoRestart _, s => s = .ended
  | .tick _, _ | .advanceEnding, _ | .unload, _ => True

/-- The action that is named when the operation is refused. A launch that was
announced by a start message is a start. -/
def Operation.action? : Operation → Option Action
  | .configure _ => some .configure
  | .start _ | .beginRunning _ => some .start
  | .pause _ => some .pause
  | .resume _ => some .resume
  | .stop _ => some .stop
  | .reset _ => some .reset
  | .restart _ => some .restart
  | .autoRestart _ => some .autoRestart
  | .tick _ | .advanceEnding | .unload => none

def Accepts (c : Countdown) (op : Operation) : Prop :=
  op.Suits c.state ∧ match op with
    | .configure settings => ∃ session, settings.session = .ok session
    | .pause _ => ∃ session ∈ c.session?, session.allowPause = true
    | _ => True

def Misconfigures (c : Countdown) (op : Operation) : Prop :=
  op.Suits c.state ∧ ∃ settings cause,
    op = .configure settings ∧ settings.session = .error cause

structure Refusal.Tells (c : Countdown) (op : Operation) (refusal : Refusal) : Prop where
  notConfigured : refusal = .notConfigured ↔ c.state = .unset
  pauseDisabled : refusal = .pauseDisabled ↔ (∃ now, op = .pause now) ∧ c.state = .running ∧
    ∃ session ∈ c.session?, session.allowPause = false
  wrongState : refusal ≠ .notConfigured → refusal ≠ .pauseDisabled →
    ∃ action ∈ op.action?, refusal = .wrongState action c.state

-- ---------------------------------------------------------------------------
-- The answer of one operation
-- ---------------------------------------------------------------------------

inductive Verdict (c : Countdown) : Operation → Answer → Prop where
  | accepted {op : Operation} {reply : Reply} (accepts : c.Accepts op) : Verdict c op (.ok reply)
  | misconfigured {settings : Settings} {cause : SettingsError}
      (suits : (Operation.configure settings).Suits c.state)
      (invalid : settings.session = .error cause) :
      Verdict c (.configure settings) (.error (.badSettings cause))
  | locked {session : Session} {now : Nat} (running : c.state = .running)
      (loaded : session ∈ c.session?) (disabled : session.allowPause = false) :
      Verdict c (.pause now) (.error .pauseDisabled)
  | unsuited {op : Operation} {action : Action} (named : op.action? = some action)
      (suits : ¬ op.Suits c.state) : Verdict c op (.error (c.refusal action))

section
variable {c : Countdown} {op : Operation} {answer : Answer} {refusal : Refusal}
  {session : Session} {run : Run}

theorem configure_verdict (c : Countdown) (settings : Settings) :
    Verdict c (.configure settings) (c.perform (.configure settings)).value := by
  have load (h : (Operation.configure settings).Suits c.state) :
      Verdict c (.configure settings) (c.perform (.configure settings)).value := by
    cases hs : settings.session with
    | ok session =>
      have hvalue : (c.perform (.configure settings)).value = .ok .done := by
        rcases h with h | h | h | h <;> simp only [perform, configure, h, hs] <;> rfl
      exact hvalue ▸ .accepted ⟨h, session, hs⟩
    | error cause =>
      have hvalue : (c.perform (.configure settings)).value = .error (.badSettings cause) := by
        rcases h with h | h | h | h <;> simp only [perform, configure, h, hs] <;> rfl
      exact hvalue ▸ .misconfigured h hs
  rcases c with _ | ⟨session, _ | _ | _ | _ | _ | _⟩
  case unset => exact load (.inl rfl)
  case loaded.ready => exact load (.inr (.inl rfl))
  case loaded.paused => exact load (.inr (.inr (.inl rfl)))
  case loaded.ended => exact load (.inr (.inr (.inr rfl)))
  all_goals exact .unsuited rfl (by rintro (h | h | h | h) <;> cases h)

theorem pause_verdict (c : Countdown) (now : Nat) :
    Verdict c (.pause now) (c.perform (.pause now)).value := by
  rcases c with _ | ⟨session, _ | _ | ⟨remaining, queue, anchor⟩ | _ | _ | _⟩
  case loaded.running =>
    simp only [perform, pause]
    split
    · exact .accepted ⟨rfl, session, rfl, ‹_›⟩
    · exact .locked rfl rfl (Bool.eq_false_iff.mpr ‹_›)
  all_goals exact .unsuited rfl (by rintro ⟨⟩)

theorem reset_verdict (c : Countdown) (force : Bool) :
    Verdict c (.reset force) (c.perform (.reset force)).value := by
  cases force with
  | true =>
    rcases c with _ | ⟨session, run⟩
    · refine .unsuited rfl ?_
      rintro (h | h | ⟨-, h⟩)
      · cases h
      · cases h
      · exact h rfl
    · exact .accepted ⟨.inr (.inr ⟨rfl, by cases run <;> nofun⟩), trivial⟩
  | false =>
    rcases c with _ | ⟨session, _ | _ | _ | _ | _ | _⟩
    case loaded.paused => exact .accepted ⟨.inl rfl, trivial⟩
    case loaded.ended => exact .accepted ⟨.inr (.inl rfl), trivial⟩
    all_goals exact .unsuited rfl (by rintro (h | h | ⟨h, -⟩) <;> cases h)

theorem perform_verdict (c : Countdown) (op : Operation) :
    Verdict c op (c.perform op).value := by
  cases op with
  | configure settings => exact configure_verdict c settings
  | pause now => exact pause_verdict c now
  | reset force => exact reset_verdict c force
  | tick | advanceEnding | unload => exact .accepted ⟨trivial, trivial⟩
  | start now =>
    rcases c with _ | ⟨session, _ | _ | _ | _ | _ | _⟩
    case loaded.ready => exact .accepted ⟨rfl, trivial⟩
    all_goals exact .unsuited rfl nofun
  | beginRunning now =>
    rcases c with _ | ⟨session, _ | _ | _ | _ | _ | _⟩
    case loaded.starting => exact .accepted ⟨rfl, trivial⟩
    all_goals exact .unsuited rfl nofun
  | resume now =>
    rcases c with _ | ⟨session, _ | _ | _ | _ | _ | _⟩
    case loaded.paused => exact .accepted ⟨rfl, trivial⟩
    all_goals exact .unsuited rfl nofun
  | stop silent =>
    rcases c with _ | ⟨session, _ | _ | _ | _ | _ | _⟩
    case loaded.running => exact .accepted ⟨.inl rfl, trivial⟩
    case loaded.paused => exact .accepted ⟨.inr rfl, trivial⟩
    all_goals exact .unsuited rfl nofun
  | restart now =>
    rcases c with _ | ⟨session, _ | _ | _ | _ | _ | _⟩
    case loaded.paused => exact .accepted ⟨.inl rfl, trivial⟩
    case loaded.ended => exact .accepted ⟨.inr rfl, trivial⟩
    all_goals exact .unsuited rfl nofun
  | autoRestart now =>
    rcases c with _ | ⟨session, _ | _ | _ | _ | _ | _⟩
    case loaded.ended => exact .accepted ⟨rfl, trivial⟩
    all_goals exact .unsuited rfl nofun

-- ---------------------------------------------------------------------------
-- What a verdict means
-- ---------------------------------------------------------------------------

theorem Verdict.accepts_iff (h : Verdict c op answer) :
    (∃ reply, answer = .ok reply) ↔ c.Accepts op := by
  cases h with
  | accepted accepts => exact ⟨fun _ => accepts, fun _ => ⟨_, rfl⟩⟩
  | misconfigured suits invalid =>
    refine ⟨nofun, fun ⟨_, session, valid⟩ => ?_⟩
    cases invalid.symm.trans valid
  | locked running loaded disabled =>
    refine ⟨nofun, fun ⟨_, session, hsession, allowed⟩ => ?_⟩
    cases loaded.symm.trans hsession
    cases disabled.symm.trans allowed
  | unsuited named suits => exact ⟨nofun, fun accepts => absurd accepts.1 suits⟩

theorem refusal_eq (c : Countdown) (action : Action) :
    c.refusal action = if c.state = .unset then .notConfigured else .wrongState action c.state := by
  rcases c with _ | ⟨session, _ | _ | _ | _ | _ | _⟩ <;> rfl

theorem Verdict.tells (h : Verdict c op (.error refusal)) (hcause : ¬ c.Misconfigures op) :
    refusal.Tells c op := by
  cases h with
  | misconfigured suits invalid => exact absurd ⟨suits, _, _, rfl, invalid⟩ hcause
  | locked running loaded disabled =>
    constructor
    case notConfigured => simp [running]
    case pauseDisabled => exact ⟨fun _ => ⟨⟨_, rfl⟩, running, _, loaded, disabled⟩, fun _ => rfl⟩
    case wrongState => exact fun _ h => absurd rfl h
  | unsuited named suits =>
    rw [refusal_eq]
    constructor
    case notConfigured => split <;> simp_all
    case pauseDisabled =>
      constructor
      · intro h
        split at h <;> cases h
      · rintro ⟨⟨now, rfl⟩, running, -⟩
        exact absurd running suits
    case wrongState =>
      intro hnot _
      split at hnot
      · exact absurd rfl hnot
      · rename_i loaded
        exact ⟨_, named, if_neg loaded⟩

theorem perform_misconfigured {settings : Settings} {cause : SettingsError}
    (suits : (Operation.configure settings).Suits c.state)
    (invalid : settings.session = .error cause) :
    (c.perform (.configure settings)).value = .error (.badSettings cause) ∧
      (c.perform (.configure settings)).countdown = .unset := by
  rcases suits with h | h | h | h <;> simp only [perform, configure, h, invalid] <;> exact ⟨rfl, rfl⟩

theorem Verdict.of_notConfigured (h : Verdict c op (.error .notConfigured)) :
    c.state = .unset ∧ ¬ op.Suits c.state := by
  generalize hanswer : (Except.error .notConfigured : Answer) = answer at h
  cases h with
  | accepted | misconfigured | locked => cases hanswer
  | unsuited named suits =>
    rw [refusal_eq] at hanswer
    split at hanswer
    · exact ⟨‹_›, suits⟩
    · cases hanswer

theorem perform_untouched (hvalue : (c.perform op).value = .error refusal)
    (hcause : ¬ c.Misconfigures op) :
    (c.perform op).countdown = c ∧ (c.perform op).changes = [] := by
  apply perform_error hvalue
  rintro cause rfl
  have verdict := perform_verdict c op
  rw [hvalue] at verdict
  generalize hanswer : (Except.error (.badSettings cause) : Answer) = answer at verdict
  cases verdict with
  | misconfigured suits invalid => exact hcause ⟨suits, _, _, rfl, invalid⟩
  | accepted | locked => cases hanswer
  | unsuited =>
    rw [refusal_eq] at hanswer
    split at hanswer <;> cases hanswer

-- ---------------------------------------------------------------------------
-- The register
-- ---------------------------------------------------------------------------

theorem register_reload_start (h : c.Sound) (loaded : c.state ≠ .unset) (changes : List Change)
    (now : Nat) :
    let r := (c.register changes).reload
    r.state = .ready ∧ ∃ plan, (r.start now).2 = .ok plan := by
  cases c with
  | unset => exact absurd rfl loaded
  | loaded session run =>
    intro r
    have hr : r = _ := register_reload changes h.1
    rw [hr, register_start]
    exact ⟨rfl, start_ready rfl now⟩

theorem register_again {r : Register} {now : Nat}
    (again : op = .restart now ∨ op = .autoRestart now) (suits : op.Suits r.state) :
    r.perform op = (r.reload.start now).map id (·.map .started) := by
  rcases again with rfl | rfl
  · have hrestart : r.restart now = r.reload.start now := if_pos suits
    rw [Register.perform, hrestart]
  · have hrestart : r.autoRestart now = r.reload.start now := if_pos suits
    rw [Register.perform, hrestart]

theorem perform_again {now : Nat} (h : c.Sound) (changes : List Change)
    (again : op = .restart now ∨ op = .autoRestart now) (suits : op.Suits c.state) :
    let r := c.register changes
    r.reload.state = .ready ∧ ∃ plan, r.reload.start now = ((r.perform op).1, .ok plan) ∧
      (c.perform op).value = .ok (.started plan) := by
  intro r
  have loaded : c.state ≠ .unset := by
    intro hunset
    rw [hunset] at suits
    rcases again with rfl | rfl
    · rcases suits with h | h <;> cases h
    · cases suits
  obtain ⟨hready, plan, hplan⟩ := register_reload_start h loaded changes now
  have hagain : r.perform op = ((r.reload.start now).1, .ok (.started plan)) := by
    rw [register_again again suits]
    refine Prod.ext rfl ?_
    rw [Prod.map_snd, hplan]
    rfl
  refine ⟨hready, plan, ?_, ?_⟩
  · rw [hagain, ← hplan]
  · have hvalue : (r.perform op).2 = (c.perform op).value := by
      rw [register_perform _ _ h]
      rfl
    rw [← hvalue, hagain]

end

/-- Whatever was asked before, an operation is carried out exactly if it is
accepted, and what is refused leaves every field as it was and reports no change.
Only settings that make no session do more: they unload the countdown. Going
again reloads a register that is then started, and neither can fail. -/
theorem accepted_or_untouched (history : List Operation) (op : Operation) :
    let c := unset.after history
    let r := ({} : Register).after history
    let answer := (c.perform op).value
    (r.perform op).2 = answer ∧
      ((∃ reply, answer = .ok reply) ↔ c.Accepts op) ∧
      (∀ refusal, answer = .error refusal → ¬ c.Misconfigures op →
        (r.perform op).1 = r ∧ (c.perform op).countdown = c ∧ (c.perform op).changes = [] ∧
          refusal.Tells c op) ∧
      (∀ settings, op = .configure settings → op.Suits c.state → ∀ cause,
        settings.session = .error cause →
          answer = .error (.badSettings cause) ∧ (c.perform op).countdown = .unset ∧
            (r.perform op).1.state = .unset ∧ (r.perform op).1.session? = none ∧
            (r.perform op).1.queue = []) ∧
      (∀ settings, op = .configure settings → answer ≠ .error .notConfigured) ∧
      ∀ now, op = .restart now ∨ op = .autoRestart now → op.Suits c.state →
        r.reload.state = .ready ∧ ∃ plan, r.reload.start now = ((r.perform op).1, .ok plan) ∧
          answer = .ok (.started plan) := by
  intro c r answer
  have hsound : c.Sound := unset_sound.after history
  have hr : r = c.register (unset.reported history) := by
    rw [← List.nil_append (unset.reported history),
      ← register_after_eq unset [] unset_sound history, ← Register.empty_eq]
  have hperform : r.perform op = (c.perform op).register (unset.reported history) := by
    rw [hr, register_perform _ _ hsound]
  have verdict : Verdict c op answer := perform_verdict c op
  refine ⟨?_, verdict.accepts_iff, fun refusal hanswer hcause => ?_,
    fun settings hop suits cause invalid => ?_, fun settings hop => ?_, fun now hop suits => ?_⟩
  · rw [hperform]
    rfl
  · obtain ⟨hkept, hchanges⟩ := perform_untouched hanswer hcause
    refine ⟨?_, hkept, hchanges, (hanswer ▸ verdict).tells hcause⟩
    rw [hperform, hr, Step.register, hkept, hchanges, List.append_nil]
  · subst hop
    obtain ⟨hvalue, hunset⟩ := perform_misconfigured suits invalid
    refine ⟨hvalue, hunset, ?_⟩
    rw [hperform, Step.register, hunset]
    exact ⟨rfl, rfl, rfl⟩
  · subst hop
    intro hanswer
    obtain ⟨hunset, suits⟩ := (hanswer ▸ verdict).of_notConfigured
    exact suits (.inl hunset)
  · have hagain := perform_again hsound (unset.reported history) hop suits
    rwa [← hr] at hagain

end Countdown

end SpokenCountdown
