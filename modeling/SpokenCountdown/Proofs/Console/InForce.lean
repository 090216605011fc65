import SpokenCountdown.Proofs.Console.Response
import SpokenCountdown.Proofs.Countdown.Renewal
import SpokenCountdown.Proofs.Preferences.WellKept

/-!
# The settings in force

The console has settings of its own, which it shows and saves, and the countdown
has a session. They are changed in different places, and at different times: the
session by whatever the timeline does with a command, the settings only once it
has accepted a configuration. Yet a session that is loaded is always the one that
these settings make.
-/

namespace SpokenCountdown

open Countdown

-- ---------------------------------------------------------------------------
-- The session of a timeline
-- ---------------------------------------------------------------------------

theorem Countdown.configure_loads (c : Countdown) (settings : Settings) :
    (∃ session, settings.session = .ok session ∧ (c.configure settings).value = .ok () ∧
      (c.configure settings).countdown = .loaded session .ready) ∨
    (∃ refusal, (c.configure settings).value = .error refusal ∧
      ((c.configure settings).countdown = c ∨ (c.configure settings).countdown = .unset)) := by
  unfold Countdown.configure
  split
  iterate 4
    cases hs : settings.session with
    | ok session => exact .inl ⟨session, rfl, rfl, rfl⟩
    | error cause => exact .inr ⟨.badSettings cause, rfl, .inr rfl⟩
  exact .inr ⟨_, rfl, .inl rfl⟩

theorem Countdown.total_of_session? {c : Countdown} {session : Session}
    (h : c.session? = some session) : c.total = session.total := by
  cases c with
  | unset => cases h
  | loaded loaded run =>
    cases h
    rfl

namespace Timeline

section
variable {t u v : Timeline} {op : Operation} {command : Command}

def Keeps (t u : Timeline) : Prop :=
  t.countdown.Sound → u.countdown.Sound ∧ u.countdown.session? = t.countdown.session?

theorem Keeps.of_eq (h : u.countdown = t.countdown) : t.Keeps u := by
  intro hsound
  rw [h]
  exact ⟨hsound, rfl⟩

theorem Keeps.trans (first : t.Keeps u) (second : u.Keeps v) : t.Keeps v := by
  intro hsound
  obtain ⟨husound, husession⟩ := first hsound
  obtain ⟨hvsound, hvsession⟩ := second husound
  exact ⟨hvsound, hvsession.trans husession⟩

theorem Reacts.keeps (h : t.Reacts op u) (hconfigure : ∀ settings, op ≠ .configure settings)
    (hunload : op ≠ .unload) : t.Keeps u := by
  intro hsound
  have transition := perform_transition t.countdown op
  rw [h.countdown]
  exact ⟨transition.sound hsound, transition.session?_eq hconfigure hunload⟩

theorem handle_keeps (t : Timeline) (time : Nat) (event : Event) :
    t.Keeps (t.handle time event) := by
  cases event with
  | tick =>
    exact Reacts.keeps (t := { t with now := max t.now time }) (onTick_reacts _)
      (by rintro settings ⟨⟩) (by rintro ⟨⟩)
  | waitOver kind =>
    exact Reacts.keeps (t := { t with now := max t.now time, wait := none })
      (onWaitOver_reacts _ kind) (by cases kind <;> rintro settings ⟨⟩)
      (by cases kind <;> rintro ⟨⟩)

theorem run_keeps (horizon fuel : Nat) (t : Timeline) : t.Keeps (run horizon fuel t) := by
  induction fuel generalizing t with
  | zero => exact .of_eq rfl
  | succ fuel ih =>
    by_cases hdue : t.Due horizon
    · obtain ⟨time, event, upcoming, hdue⟩ := hdue
      rw [run_of_due upcoming hdue]
      exact (t.handle_keeps time event).trans (ih _)
    · rw [run_of_not_due hdue]
      exact .of_eq rfl

theorem lull_keeps (t : Timeline) (l : Lull) : t.Keeps (t.lull l) := by
  cases l with
  | sleep ms => exact t.run_keeps _ _
  | release =>
    have hrelease : t.release.countdown = t.countdown := by
      unfold release
      split
      · split <;> rfl
      · rfl
    exact (Keeps.of_eq hrelease).trans (run_keeps _ _ _)

theorem perform_keeps (hcommand : ∀ settings, command ≠ .configure settings) :
    t.Keeps (t.perform command).1 := by
  cases hclosed : t.closed with
  | true => exact .of_eq (by simp [perform, hclosed])
  | false =>
    rw [perform_eq hclosed]
    refine (Keeps.of_eq t.addressed_countdown).trans ((carryOut_reacts _ command).keeps ?_ ?_)
    · rintro settings hop
      cases command <;> cases hop
      exact hcommand _ rfl
    · rintro hop
      cases command <;> cases hop

theorem perform_configure (t : Timeline) (settings : Settings) :
    (∃ session state, settings.session = .ok session ∧
      (t.perform (.configure settings)).2 = .ok state ∧
      (t.perform (.configure settings)).1.countdown = .loaded session .ready) ∨
    (∃ refusal, (t.perform (.configure settings)).2 = .error refusal ∧
      ((t.perform (.configure settings)).1.countdown = t.countdown ∨
        (t.perform (.configure settings)).1.countdown = .unset)) := by
  cases hclosed : t.closed with
  | true => exact .inr ⟨.closed, by simp [perform, hclosed], .inl (by simp [perform, hclosed])⟩
  | false =>
    rw [perform_eq hclosed, ← t.addressed_countdown]
    rcases t.addressed.countdown.configure_loads settings with
      ⟨session, hsession, hvalue, hcountdown⟩ | ⟨refusal, hvalue, hcountdown⟩
    · refine .inl ⟨session, _, hsession, apply_ok hvalue, ?_⟩
      simp only [carryOut, apply, hvalue]
      exact hcountdown
    · refine .inr ⟨refusal, ?_, ?_⟩
      · simp only [carryOut, apply, hvalue]
      · simp only [carryOut, apply, hvalue]
        exact hcountdown

end

end Timeline

-- ---------------------------------------------------------------------------
-- The settings of a console
-- ---------------------------------------------------------------------------

namespace Console

section
variable {console next : Console} {command : Command} {reply : Reply}

structure InForce (console : Console) : Prop where
  sound : console.timeline.countdown.Sound
  session : ∀ session ∈ console.timeline.countdown.session?,
    console.settings.session = .ok session

theorem ofPreferences_inForce (preferences : Preferences) (storage : Option Storage)
    (gateways : Gateways) : (ofPreferences preferences storage gateways).InForce where
  sound := unset_sound
  session := by rintro session ⟨⟩

theorem InForce.keeps (h : console.InForce) (hkeeps : console.timeline.Keeps next.timeline)
    (hsettings : next.settings = console.settings) : next.InForce := by
  obtain ⟨hsound, hsession⟩ := hkeeps h.sound
  refine ⟨hsound, ?_⟩
  rw [hsession, hsettings]
  exact h.session

theorem InForce.configured {settings : Settings} {timeline : Timeline} {state : State}
    (performed : console.timeline.perform (.configure settings) = (timeline, .ok state))
    (htimeline : next.timeline = timeline) (hsettings : next.settings = settings) :
    next.InForce := by
  subst htimeline hsettings
  have hperform := console.timeline.perform_configure next.settings
  rw [performed] at hperform
  rcases hperform with ⟨session, _, hvalid, -, hcountdown⟩ | ⟨refusal, herror, -⟩
  · refine ⟨?_, ?_⟩
    · rw [hcountdown]
      exact ⟨Settings.session_sound hvalid, trivial⟩
    · rw [hcountdown]
      rintro session ⟨⟩
      exact hvalid
  · cases herror

theorem InForce.unconfigured {settings : Settings} {timeline : Timeline} {refusal : Refusal}
    (h : console.InForce)
    (performed : console.timeline.perform (.configure settings) = (timeline, .error refusal))
    (htimeline : next.timeline = timeline) (hsettings : next.settings = console.settings) :
    next.InForce := by
  subst htimeline
  have hperform := console.timeline.perform_configure settings
  rw [performed] at hperform
  rcases hperform with ⟨_, _, _, hok, _⟩ | ⟨_, -, hkept | hunset⟩
  · cases hok
  · exact h.keeps (.of_eq hkept) hsettings
  · refine ⟨hunset ▸ unset_sound, ?_⟩
    rw [hunset]
    rintro session ⟨⟩

theorem Command.order?_ne_configure {order : SpokenCountdown.Command}
    (h : command.order? = some order) (settings : Settings) : order ≠ .configure settings := by
  rintro rfl
  cases command <;> cases h

theorem InForce.ordered {order : SpokenCountdown.Command} {timeline : Timeline}
    {result : Except Refusal State} (h : console.InForce) (isOrder : command.order? = some order)
    (performed : console.timeline.perform order = (timeline, result))
    (htimeline : next.timeline = timeline) (hsettings : next.settings = console.settings) :
    next.InForce := by
  subst htimeline
  have hkeeps := console.timeline.perform_keeps (Command.order?_ne_configure isOrder)
  rw [performed] at hkeeps
  exact h.keeps hkeeps hsettings

theorem Response.inForce (h : Response console command next reply) (hconsole : console.InForce) :
    next.InForce := by
  cases h with
  | told | left | refused => exact hconsole
  | saved | unsaved => exact hconsole.keeps (.of_eq rfl) rfl
  | configured performed => exact .configured performed rfl rfl
  | loaded _ performed => exact .configured performed rfl rfl
  | unconfigured performed => exact hconsole.unconfigured performed rfl rfl
  | unloaded _ performed => exact hconsole.unconfigured performed rfl rfl
  | obeyed isOrder performed => exact hconsole.ordered isOrder performed rfl rfl
  | disobeyed isOrder performed => exact hconsole.ordered isOrder performed rfl rfl

theorem InForce.happen (h : console.InForce) (happening : Happening) :
    (console.happen happening).InForce := by
  cases happening with
  | line files text =>
    rcases console.respond_response files text with ⟨command, -, response⟩ | hkept
    · exact response.inForce h
    · simpa only [Console.happen, hkept] using h
  | lull l => exact h.keeps (console.timeline.lull_keeps l) rfl
  | replaced file => exact h.keeps (.of_eq rfl) rfl

theorem InForce.after (h : console.InForce) (history : List Happening) :
    (console.after history).InForce := by
  induction history generalizing console with
  | nil => exact h
  | cons happening rest ih => exact ih (h.happen happening)

-- ---------------------------------------------------------------------------
-- What is shown and what is saved
-- ---------------------------------------------------------------------------

theorem savePreferences_preferences (console : Console) (preferences : Preferences)
    (output : String) :
    (console.savePreferences preferences output).1.preferences = preferences := by
  by_cases h : console.Writable
  · simp only [savePreferences, persist_of_writable h]
    rfl
  · simp only [savePreferences, (persist_of_not_writable h preferences).1]

theorem run_savePreset (files : String → Option String) {name : String} {saved : Preferences}
    (hsaved : console.preferences.savePreset name console.settings = .ok saved) :
    ∃ preset ∈ (console.run files (.savePreset name)).1.preferences.presets,
      preset.name = Text.trim name ∧ preset.settings = console.settings := by
  simp only [run, hsaved, savePreferences_preferences]
  cases Preferences.savePreset_edited hsaved with
  | overwritten hname h => exact ⟨_, List.mem_append_right _ List.mem_cons_self, h.named, rfl⟩
  | added => exact ⟨_, List.mem_append_right _ List.mem_cons_self, rfl, rfl⟩

end

/-- After every history, unless nothing is loaded, the settings of the console make
the session that the countdown has. So that is what a preview shows, and what
a saved preset makes. -/
theorem settings_in_force (preferences : Preferences) (storage : Option Storage)
    (gateways : Gateways) (history : List Happening) :
    let console := (ofPreferences preferences storage gateways).after history
    console.timeline.countdown.state ≠ .unset →
      ∃ session, console.settings.session = .ok session ∧
        console.timeline.countdown.session? = some session ∧
        ∀ files,
          console.run files .preview = (console, .done (preview session)) ∧
          ∀ name saved, console.preferences.savePreset name console.settings = .ok saved →
            ∃ preset ∈ (console.run files (.savePreset name)).1.preferences.presets,
              preset.name = Text.trim name ∧ preset.settings.session = .ok session := by
  intro console hset
  have h : console.InForce := (ofPreferences_inForce ..).after history
  obtain ⟨session, hsession⟩ : ∃ session, console.timeline.countdown.session? = some session := by
    cases hcountdown : console.timeline.countdown with
    | unset => exact absurd (by rw [hcountdown]; rfl) hset
    | loaded session progress => exact ⟨session, rfl⟩
  have hvalid : console.settings.session = .ok session := h.session session hsession
  refine ⟨session, hvalid, hsession, fun files => ⟨by simp only [run, hvalid], ?_⟩⟩
  intro name saved hsaved
  obtain ⟨preset, hmem, hname, hsettings⟩ := run_savePreset files hsaved
  exact ⟨preset, hmem, hname, hsettings ▸ hvalid⟩

/-- A second configuration and a preset come too late: both are refused while the
first one runs. -/
theorem settings_in_force_running :
    let nothing : String → Option String := fun _ => none
    let history : List Happening :=
      [.line nothing "save-preset -n a", .line nothing "configure -d 10 -s x",
        .line nothing "start", .lull (.sleep 3000), .line nothing "configure -d 20 -s x",
        .line nothing "load-preset -n a"]
    let console := (ofPreferences {} none {}).after history
    console.timeline.countdown.state = .running ∧
      ∃ session, console.settings.session = .ok session ∧
        console.timeline.countdown.session? = some session ∧ session.total = 10000 := by
  intro nothing history console
  have hrunning : console.timeline.countdown.state = .running := by decide +kernel
  have htotal : console.timeline.countdown.total = 10000 := by decide +kernel
  have hset : console.timeline.countdown.state ≠ .unset := by
    rw [hrunning]
    decide
  -- from here on only that it runs matters, not how it came to that
  clear_value history
  obtain ⟨session, hvalid, hsession, -⟩ := settings_in_force {} none {} history hset
  exact ⟨hrunning, session, hvalid, hsession, (total_of_session? hsession).symm.trans htotal⟩

end Console

end SpokenCountdown
