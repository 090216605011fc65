import SpokenCountdown.Proofs.Countdown.Agreement

/-!
# The fields of a register stay coherent

`Coherent` ties the fields of a register to its state. A register that shows a
sound countdown is coherent, and every history from an empty register leads to
one that does; so no operation of any history meets a missing field.
-/

namespace SpokenCountdown

open Countdown

structure Register.Coherent (r : Register) : Prop where
  unset : r.state = .unset ↔ r.session? = none
  anchored : r.anchor?.isSome ↔ r.state = .running
  phased : r.phase ≠ .idle ↔ r.state = .ending
  ending : r.state = .ending → ∃ session ∈ r.session?,
    (r.phase = .speaking ∧ session.sayEnd = true) ∨
      (r.phase = .chiming ∧ session.endChime = true)
  remaining_le : r.remaining ≤ r.total
  remaining_full : r.state = .ready ∨ r.state = .starting → r.remaining = r.total
  queue_suffix : r.queue <:+ r.announcements
  queue_full : r.state = .ready ∨ r.state = .starting → r.queue = r.announcements
  queue_empty : r.state = .unset ∨ r.state = .ending ∨ r.state = .ended → r.queue = []
  paused : r.state = .paused → ∃ session ∈ r.session?, session.allowPause = true
  starting : r.state = .starting → ∃ session ∈ r.session?, session.sayStart = true

namespace Countdown

section
variable {c : Countdown}

-- ---------------------------------------------------------------------------
-- What the views say of a state
-- ---------------------------------------------------------------------------

theorem state_eq_unset_iff : c.state = .unset ↔ c.session? = none := by
  cases c with
  | unset => simp [state, session?]
  | loaded session run => cases run <;> simp [state, Run.state, session?]

theorem isSome_anchor?_iff : c.anchor?.isSome ↔ c.state = .running := by
  cases c with
  | unset => simp [anchor?, state]
  | loaded session run => cases run <;> simp [anchor?, Run.anchor?, state, Run.state]

theorem phase_ne_idle_iff : Ending.phase c.ending? ≠ .idle ↔ c.state = .ending := by
  cases c with
  | unset => simp [ending?, Ending.phase, state]
  | loaded session run =>
    cases run with
    | ending remaining phase =>
      cases phase <;> simp [ending?, Run.ending?, Ending.phase, state, Run.state]
    | _ => simp [ending?, Run.ending?, Ending.phase, state, Run.state]

theorem remaining_le_total (h : c.Sound) : c.remaining ≤ c.total := by
  cases c with
  | unset => exact Nat.le_refl _
  | loaded session run => exact h.2.remaining_le

theorem queue_suffix (h : c.Sound) : c.queue <:+ c.announcements := by
  cases c with
  | unset => exact List.suffix_refl _
  | loaded session run => exact h.2.queue_suffix

theorem untouched (h : c.state = .ready ∨ c.state = .starting) :
    c.remaining = c.total ∧ c.queue = c.announcements := by
  cases c with
  | unset => simp [state] at h
  | loaded session run =>
    cases run with
    | ready | starting => exact ⟨rfl, rfl⟩
    | _ => simp [state, Run.state] at h

theorem queue_eq_nil (h : c.state = .unset ∨ c.state = .ending ∨ c.state = .ended) :
    c.queue = [] := by
  cases c with
  | unset => rfl
  | loaded session run =>
    cases run with
    | ending | ended => rfl
    | _ => simp [state, Run.state] at h

theorem allowPause_of_paused (h : c.Sound) (hstate : c.state = .paused) :
    ∃ session ∈ c.session?, session.allowPause = true := by
  rcases c with _ | ⟨session, _ | _ | _ | _ | _ | _⟩ <;> cases hstate
  exact ⟨session, rfl, h.2.1⟩

theorem sayStart_of_starting (h : c.Sound) (hstate : c.state = .starting) :
    ∃ session ∈ c.session?, session.sayStart = true := by
  rcases c with _ | ⟨session, _ | _ | _ | _ | _ | _⟩ <;> cases hstate
  exact ⟨session, rfl, h.2⟩

theorem asked_of_ending (h : c.Sound) (hstate : c.state = .ending) :
    ∃ session ∈ c.session?,
      (Ending.phase c.ending? = .speaking ∧ session.sayEnd = true) ∨
        (Ending.phase c.ending? = .chiming ∧ session.endChime = true) := by
  rcases c with _ | ⟨session, _ | _ | _ | _ | ⟨remaining, _ | _⟩ | _⟩ <;> cases hstate
  · exact ⟨session, rfl, .inl ⟨rfl, h.2.1⟩⟩
  · exact ⟨session, rfl, .inr ⟨rfl, h.2.1⟩⟩

-- ---------------------------------------------------------------------------
-- Every history
-- ---------------------------------------------------------------------------

theorem total_register (c : Countdown) (changes : List Change) :
    (c.register changes).total = c.total := by
  cases c <;> rfl

theorem Sound.register_coherent (h : c.Sound) (changes : List Change) :
    (c.register changes).Coherent where
  unset := state_eq_unset_iff
  anchored := isSome_anchor?_iff
  phased := phase_ne_idle_iff
  ending := asked_of_ending h
  remaining_le := by
    rw [total_register]
    exact remaining_le_total h
  remaining_full hstate := by
    rw [total_register]
    exact (untouched hstate).1
  queue_suffix := queue_suffix h
  queue_full hstate := (untouched hstate).2
  queue_empty := queue_eq_nil
  paused := allowPause_of_paused h
  starting := sayStart_of_starting h

theorem start_ready (h : c.state = .ready) (now : Nat) :
    ∃ plan, (c.start now).value = .ok plan := by
  rcases c with _ | ⟨session, _ | _ | _ | _ | _ | _⟩ <;> cases h
  exact ⟨_, rfl⟩

theorem advanceEnding_ending (h : c.state = .ending) :
    ∃ step, c.advanceEnding.value = some step := by
  rcases c with _ | ⟨session, _ | _ | _ | _ | ⟨remaining, _ | _⟩ | _⟩ <;> cases h
  · exact ⟨_, rfl⟩
  · exact ⟨_, rfl⟩

end

end Countdown

namespace Register

theorem empty_eq : ({} : Register) = Countdown.unset.register [] := by
  rw [register, percentLeft_unset]
  rfl

/-- Whatever is asked of an empty register, and at whatever instants, its fields
stay coherent and it shows the countdown of the same history. The next operation
has the answer that the countdown gives, and neither it nor the history takes a
fallback. -/
theorem after_coherent (history : List Operation) :
    let r := ({} : Register).after history
    let c := Countdown.unset.after history
    r.Coherent ∧ r.fallbacks = [] ∧ (∃ changes, r = c.register changes) ∧
      (∀ op, (r.perform op).2 = (c.perform op).value ∧ (r.perform op).1.fallbacks = []) ∧
      (r.state = .ready → ∀ now, ∃ plan, (r.start now).2 = .ok plan) ∧
      (r.state = .ending → ∃ step, r.advanceEnding.2 = some step) := by
  intro r c
  have hsound : c.Sound := unset_sound.after history
  obtain ⟨changes, hafter⟩ := register_after .unset [] unset_sound history
  have hr : r = c.register changes := by
    rw [← List.nil_append changes, ← hafter, ← empty_eq]
  clear_value r
  subst hr
  refine ⟨?_, ?_, ⟨changes, rfl⟩, fun op => ?_, fun hready now => ?_, fun hending => ?_⟩
  · exact hsound.register_coherent changes
  · rfl
  · rw [register_perform _ _ hsound]
    exact ⟨rfl, rfl⟩
  · rw [register_start]
    exact start_ready hready now
  · rw [register_advanceEnding]
    exact advanceEnding_ending hending

end Register

end SpokenCountdown
