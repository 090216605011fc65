import SpokenCountdown.Proofs.Countdown.Coherence
import SpokenCountdown.Proofs.Countdown.Pacing

/-!
# A reset leaves nothing of the old run

A session is loaded by a configuration and stays until the next one or until it
is unloaded. A reset goes back to it and to nothing else, so a register that was
reset cannot be told from a new one with the settings of the last configuration,
whatever is asked of both. After a restart the same holds of a new one that was
started at that instant.
-/

namespace SpokenCountdown

open Countdown

namespace Countdown

structure StemsFrom (c : Countdown) (latest : Option Settings) : Prop where
  valid : ∀ settings ∈ latest, ∃ session, settings.session = .ok session
  loaded : ∀ session ∈ c.session?, ∃ settings ∈ latest, settings.session = .ok session

def acceptedLast (latest : Option Settings) : Operation → Answer → Option Settings
  | .configure settings, .ok _ => some settings
  | _, _ => latest

section
variable {c d : Countdown} {op : Operation} {answer : Answer} {latest : Option Settings}
  {reply : Reply} {plan : StartPlan} {force : Bool} {now : Nat}

-- ---------------------------------------------------------------------------
-- The session
-- ---------------------------------------------------------------------------

theorem Transition.session?_eq (h : Transition c op answer d)
    (hconfigure : ∀ settings, op ≠ .configure settings) (hunload : op ≠ .unload) :
    d.session? = c.session? := by
  cases h with
  | unloaded => exact absurd rfl hunload
  | misconfigured | configured => exact absurd rfl (hconfigure _)
  | _ => rfl

theorem unset_stemsFrom (h : ∀ settings ∈ latest, ∃ session, settings.session = .ok session) :
    unset.StemsFrom latest := by
  refine ⟨h, ?_⟩
  rintro session ⟨⟩

theorem unset_stemsFrom_none : unset.StemsFrom none := by
  apply unset_stemsFrom
  rintro settings ⟨⟩

theorem Transition.stemsFrom (h : Transition c op answer d) (hc : c.StemsFrom latest) :
    d.StemsFrom (acceptedLast latest op answer) := by
  cases op with
  | configure settings =>
    cases h with
    | refused => exact hc
    | misconfigured => exact unset_stemsFrom hc.valid
    | configured valid =>
      constructor
      · rintro settings ⟨⟩
        exact ⟨_, valid⟩
      · rintro session ⟨⟩
        exact ⟨_, rfl, valid⟩
    | launched launches => cases launches
  | unload =>
    cases h with
    | refused => exact hc
    | unloaded => exact unset_stemsFrom hc.valid
    | launched launches => cases launches
  | _ =>
    refine ⟨hc.valid, ?_⟩
    rw [h.session?_eq (by rintro settings ⟨⟩) (by rintro ⟨⟩)]
    exact hc.loaded

theorem Transition.of_reset (h : Transition c (.reset force) (.ok reply) d) :
    ∃ session ∈ c.session?, d = .loaded session .ready := by
  cases h with
  | reset => exact ⟨_, rfl, rfl⟩
  | launched launches => cases launches

theorem Transition.of_again (h : Transition c op (.ok (.started plan)) d)
    (again : op = .restart now ∨ op = .autoRestart now) :
    ∃ session ∈ c.session?, plan = (session.launch now).2 ∧
      d = .loaded session (session.launched now) := by
  cases h with
  | launched launches =>
    rcases again with rfl | rfl
    · cases launches <;> exact ⟨_, rfl, rfl, rfl⟩
    · cases launches
      exact ⟨_, rfl, rfl, rfl⟩

end

end Countdown

namespace Register

def lastAccepted (r : Register) (latest : Option Settings) : List Operation → Option Settings
  | [] => latest
  | op :: rest => (r.perform op).1.lastAccepted (acceptedLast latest op (r.perform op).2) rest

/-- Registers that no history can tell apart: they give the same answers, report
the same changes and have the same in every field. -/
def Alike (r s : Register) : Prop :=
  ∀ history, (∀ op, ((r.after history).perform op).2 = ((s.after history).perform op).2) ∧
    ∃ news, r.after history = { s.after history with changes := r.changes ++ news } ∧
      (s.after history).changes = s.changes ++ news

end Register

namespace Countdown

section
variable {c : Countdown} {latest : Option Settings} {session : Session} {settings : Settings}

theorem register_alike (h : c.Sound) (first second : List Change) :
    (c.register first).Alike (c.register second) := by
  intro history
  have hfirst := register_after_eq c first h history
  have hsecond := register_after_eq c second h history
  refine ⟨fun op => ?_, c.reported history, ?_, ?_⟩
  · have hsound := h.after history
    rw [hfirst, hsecond, register_perform _ _ hsound, register_perform _ _ hsound]
    rfl
  · rw [hfirst, hsecond]
    rfl
  · rw [hsecond]
    rfl

theorem perform_alike (h : c.Sound) (op : Operation) (before changes : List Change) :
    ((c.register before).perform op).1.Alike ((c.perform op).countdown.register changes) := by
  rw [register_perform _ _ h]
  exact register_alike (h.perform op) _ _

theorem StemsFrom.after (h : c.Sound) (hc : c.StemsFrom latest) (changes : List Change)
    (history : List Operation) :
    (c.after history).StemsFrom ((c.register changes).lastAccepted latest history) := by
  induction history generalizing c latest changes with
  | nil => exact hc
  | cons op rest ih =>
    rw [Register.lastAccepted, register_perform _ _ h]
    exact ih (h.perform op) ((perform_transition _ op).stemsFrom hc) _

theorem StemsFrom.session_eq {other : Session} (hc : c.StemsFrom latest)
    (last : settings ∈ latest) (valid : settings.session = .ok session)
    (loaded : other ∈ c.session?) : other = session := by
  obtain ⟨same, hsame, hother⟩ := hc.loaded other loaded
  obtain rfl : settings = same := Option.mem_unique last hsame
  exact Except.ok.inj (hother.symm.trans valid)

theorem register_configured (valid : settings.session = .ok session) :
    ({} : Register).configure settings =
      ((loaded session .ready).register [⟨.unset, .ready⟩], .ok ()) := by
  rw [Register.empty_eq, register_configure]
  simp only [Countdown.configure, state, valid]
  rfl

theorem register_started (session : Session) (changes : List Change) (now : Nat) :
    ∃ more, ((loaded session .ready).register changes).start now =
      ((loaded session (session.launched now)).register more, .ok (session.launch now).2) := by
  rw [register_start]
  simp only [Step.register, Countdown.start, visit, session.getLast_launch, Option.getD_some]
  exact ⟨_, rfl⟩

end

end Countdown

namespace Register

/-- Whatever happened before, an accepted reset leads to a register like a new one
that was configured with the settings accepted last, and an accepted restart to
one like a new one that was also started at that instant. -/
theorem renewed_as_new (history : List Operation) {settings : Settings}
    (last : settings ∈ ({} : Register).lastAccepted none history) :
    let r := ({} : Register).after history
    let new := (({} : Register).configure settings).1
    (∃ changes, r = (unset.after history).register changes) ∧
      (({} : Register).configure settings).2 = .ok () ∧
      (∀ force, (r.reset force).2 = .ok () → (r.reset force).1.Alike new) ∧
      (∀ now plan, (r.restart now).2 = .ok plan →
        (new.start now).2 = .ok plan ∧ (r.restart now).1.Alike (new.start now).1) ∧
      ∀ now plan, (r.autoRestart now).2 = .ok plan →
        (new.start now).2 = .ok plan ∧ (r.autoRestart now).1.Alike (new.start now).1 := by
  intro r new
  let c := unset.after history
  have hsound : c.Sound := unset_sound.after history
  obtain ⟨changes, hr⟩ : ∃ changes, r = c.register changes := by
    refine ⟨[] ++ unset.reported history, ?_⟩
    rw [← register_after_eq unset [] unset_sound history, ← Register.empty_eq]
  have hanswer (op : Operation) : (c.perform op).value = (r.perform op).2 := by
    rw [hr, register_perform _ _ hsound]
    rfl
  have hstems : c.StemsFrom (({} : Register).lastAccepted none history) := by
    rw [Register.empty_eq]
    exact unset_stemsFrom_none.after unset_sound [] history
  obtain ⟨session, valid⟩ := hstems.valid settings last
  have hconfigure := register_configured valid
  have hnew : new = (loaded session .ready).register [⟨.unset, .ready⟩] :=
    congrArg Prod.fst hconfigure
  have again (op : Operation) (now : Nat) (plan : StartPlan)
      (hop : op = .restart now ∨ op = .autoRestart now)
      (hvalue : (r.perform op).2 = .ok (.started plan)) :
      (new.start now).2 = .ok plan ∧ (r.perform op).1.Alike (new.start now).1 := by
    have transition := perform_transition c op
    rw [hanswer, hvalue] at transition
    obtain ⟨other, loaded, rfl, hcountdown⟩ := transition.of_again hop
    obtain rfl := hstems.session_eq last valid loaded
    obtain ⟨more, hstart⟩ := register_started other [⟨.unset, .ready⟩] now
    rw [hnew, hstart, hr, ← hcountdown]
    exact ⟨rfl, perform_alike hsound op changes more⟩
  refine ⟨⟨changes, hr⟩, congrArg Prod.snd hconfigure, fun force hvalue => ?_,
    fun now plan hvalue => ?_, fun now plan hvalue => ?_⟩
  · have transition := perform_transition c (.reset force)
    have hreset : (r.perform (.reset force)).2 = .ok .done := by
      rw [Register.perform, Prod.map_snd, hvalue]
      rfl
    rw [hanswer, hreset] at transition
    obtain ⟨other, loaded, hcountdown⟩ := transition.of_reset
    obtain rfl := hstems.session_eq last valid loaded
    rw [hnew, ← hcountdown, hr]
    exact perform_alike hsound (.reset force) changes _
  · refine again (.restart now) now plan (.inl rfl) ?_
    rw [Register.perform, Prod.map_snd, hvalue]
    rfl
  · refine again (.autoRestart now) now plan (.inr rfl) ?_
    rw [Register.perform, Prod.map_snd, hvalue]
    rfl

/-- A run that refused other settings, spoke one of its two announcements, was
paused within a millisecond and then stopped. -/
theorem renewed_as_new_stopped :
    let history : List Operation := [.configure tenSeconds, .start 0, .configure {},
      .tick 5200300, .pause 6000500, .stop true]
    let r := ({} : Register).after history
    let new := (({} : Register).configure tenSeconds).1
    r.remaining = 4000 ∧ r.queue = [] ∧
      tenSeconds ∈ ({} : Register).lastAccepted none history ∧
      (r.reset false).2 = .ok () ∧ (r.reset false).1.Alike new ∧
      (r.restart 7000000).2 = .ok .running ∧ (new.start 7000000).2 = .ok .running ∧
      (r.restart 7000000).1.Alike (new.start 7000000).1 := by
  intro history r new
  have hconfigure := register_configured tenSeconds_session
  have hr : r = ((loaded tenSecondsSession .ready).register [⟨.unset, .ready⟩]).after
      [.start 0, .configure {}, .tick 5200300, .pause 6000500, .stop true] := by
    simp only [r, history, after, List.foldl_cons, perform, hconfigure, Prod.map_fst, id_eq]
  have last : tenSeconds ∈ ({} : Register).lastAccepted none history := by
    simp only [history, lastAccepted, perform, hconfigure, Prod.map_fst, Prod.map_snd, id_eq]
    rfl
  have hstopped : r.remaining = 4000 ∧ r.queue = [] ∧ (r.reset false).2 = .ok () ∧
      (r.restart 7000000).2 = .ok .running := by
    rw [hr]
    decide +kernel
  obtain ⟨hremaining, hqueue, hreset, hrestart⟩ := hstopped
  obtain ⟨-, -, reset, restart, -⟩ := renewed_as_new history last
  exact ⟨hremaining, hqueue, last, hreset, reset false hreset, hrestart,
    restart 7000000 .running hrestart⟩

end Register

end SpokenCountdown
