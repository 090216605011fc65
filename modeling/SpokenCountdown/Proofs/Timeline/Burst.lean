import SpokenCountdown.Proofs.Timeline.Forecast

/-!
# Five events at one moment

While nobody commands, events come one after the other, time goes by and
utterances are released, in any order (`Proceeds`). The end of a run, of the end
message, of the chime and of the delay, and then the end of the start message can
all fall on one moment, but no more: the next tick is a period away. So there are
only so many events up to any time, and letting time pass handles them all:
`five_events_at_once`.
-/

namespace SpokenCountdown

open Countdown

namespace Timeline

/-- From one timeline to another without a command, noting each event that comes
with its moment. An event may come later than it was due. -/
inductive Proceeds : Timeline → List (Nat × Event) → Timeline → Prop where
  | stay {t : Timeline} : Proceeds t [] t
  | event {t u : Timeline} {time : Nat} {event : Event} {noted : List (Nat × Event)}
      (upcoming : t.upcoming = some (time, event))
      (proceeds : Proceeds (t.handle time event) noted u) :
      Proceeds t ((max t.now time, event) :: noted) u
  | lapse {t u : Timeline} {noted : List (Nat × Event)} (ms : Nat)
      (proceeds : Proceeds { t with now := t.now + ms } noted u) : Proceeds t noted u
  | release {t u : Timeline} {noted : List (Nat × Event)}
      (proceeds : Proceeds t.release noted u) : Proceeds t noted u

def room (t : Timeline) (moment : Nat) : Nat :=
  if moment < t.now then 0 else if moment = t.now then t.rank else 5

section
variable {t u : Timeline} {noted : List (Nat × Event)} {time horizon moment fuel : Nat}
  {event : Event}

theorem release_now (t : Timeline) : t.release.now = t.now := by
  unfold release
  split
  · split <;> rfl
  · rfl

theorem release_rank (t : Timeline) : t.release.rank = t.rank := by
  unfold release
  split
  · split <;> rfl
  · rfl

theorem Proceeds.on_time (upcoming : t.upcoming = some (time, event)) (later : t.now ≤ time)
    (proceeds : (t.handle time event).Proceeds noted u) : t.Proceeds ((time, event) :: noted) u := by
  have h := Proceeds.event upcoming proceeds
  rwa [Nat.max_eq_right later] at h

theorem InStep.release (h : t.InStep) : t.release.InStep :=
  h.turn t.release_turn

theorem InStep.lapse (h : t.InStep) (ms : Nat) : InStep { t with now := t.now + ms } :=
  h.turn (t.happen_turn (.lapse ms))

-- ---------------------------------------------------------------------------
-- One moment
-- ---------------------------------------------------------------------------

theorem room_le (t : Timeline) (moment : Nat) : t.room moment ≤ 5 := by
  have hle := t.rank_le
  unfold room
  split
  · omega
  · split <;> omega

theorem release_room (t : Timeline) (moment : Nat) : t.release.room moment = t.room moment := by
  rw [room, room, release_now, release_rank]

theorem lapse_room (t : Timeline) (ms moment : Nat) :
    room { t with now := t.now + ms } moment ≤ t.room moment := by
  rcases Nat.lt_trichotomy moment (t.now + ms) with hlt | heq | hgt
  · rw [room, if_pos hlt]
    exact Nat.zero_le _
  · cases ms with
    | zero => exact Nat.le_refl _
    | succ ms =>
      have hroom : t.room moment = 5 := by
        rw [room, if_neg (by omega), if_neg (by omega)]
      rw [hroom]
      exact room_le _ moment
  · have hroom : t.room moment = 5 := by
      rw [room, if_neg (by omega), if_neg (by omega)]
    rw [hroom]
    exact room_le _ moment

theorem InStep.handle_room (h : t.InStep) (upcoming : t.upcoming = some (time, event))
    (moment : Nat) :
    (t.handle time event).room moment + (if max t.now time = moment then 1 else 0) ≤
      t.room moment := by
  have hnow := t.handle_now time event
  have hrank := (t.handle time event).countdown.rank_le
  rw [← (h.handle upcoming).rank_eq (h.handle_paced upcoming)] at hrank
  unfold room
  rw [hnow]
  rcases Nat.lt_trichotomy moment (max t.now time) with hlt | rfl | hgt
  · rw [if_pos hlt, if_neg (by omega)]
    exact Nat.zero_le _
  · by_cases hsame : time ≤ t.now
    · have hdown := h.handle_rank_lt upcoming hsame
      simp only [Nat.max_eq_left hsame, Nat.lt_irrefl, ↓reduceIte]
      exact hdown
    · have hmax : max t.now time = time := by omega
      simp only [hmax, Nat.lt_irrefl, ↓reduceIte]
      rw [if_neg (by omega), if_neg (by omega)]
      omega
  · rw [if_neg (by omega), if_neg (by omega), if_neg (by omega), if_neg (by omega),
      if_neg (by omega)]

theorem Proceeds.count_le (p : t.Proceeds noted u) (h : t.InStep) (moment : Nat) :
    noted.countP (·.1 = moment) ≤ t.room moment := by
  induction p with
  | stay => exact Nat.zero_le _
  | event upcoming _ ih =>
    have hrest := ih (h.handle upcoming)
    have hroom := h.handle_room upcoming moment
    simp only [List.countP_cons, decide_eq_true_eq]
    omega
  | @lapse t _ _ ms _ ih => exact (ih (h.lapse ms)).trans (t.lapse_room ms moment)
  | @release t _ _ _ ih => exact (ih h.release).trans_eq (t.release_room moment)

-- ---------------------------------------------------------------------------
-- Up to a time
-- ---------------------------------------------------------------------------

theorem Proceeds.later (p : t.Proceeds noted u) : ∀ note ∈ noted, t.now ≤ note.1 := by
  induction p with
  | stay => exact nofun
  | @event t u time event noted upcoming _ ih =>
    have hnow := t.handle_now time event
    refine List.forall_mem_cons.mpr ⟨Nat.le_max_left .., fun note hnote => ?_⟩
    have hle := ih note hnote
    omega
  | @lapse t u noted ms _ ih =>
    intro note hnote
    have hle : t.now + ms ≤ note.1 := ih note hnote
    omega
  | @release t _ _ _ ih => exact t.release_now ▸ ih

theorem lapse_ahead (ms : Nat) (hnow : t.now + ms ≤ horizon) :
    ahead { t with now := t.now + ms } horizon ≤ t.ahead horizon := by
  cases ms with
  | zero => exact Nat.le_refl _
  | succ ms =>
    have hle := rank_le { t with now := t.now + (ms + 1) }
    unfold ahead
    dsimp only
    omega

theorem Proceeds.length_le (p : t.Proceeds noted u) (h : t.InStep) (hnow : t.now ≤ horizon)
    (hnoted : ∀ note ∈ noted, note.1 ≤ horizon) : noted.length ≤ t.ahead horizon := by
  induction p with
  | stay => exact Nat.zero_le _
  | @event t u time event noted upcoming _ ih =>
    obtain ⟨hfirst, hrest⟩ := List.forall_mem_cons.mp hnoted
    have hlater := t.handle_now time event
    have hdown := h.handle_ahead_lt upcoming hnow (by omega)
    have hle := ih (h.handle upcoming) (by omega) hrest
    rw [List.length_cons]
    omega
  | @lapse t u noted ms proceeds ih =>
    by_cases hlate : t.now + ms ≤ horizon
    · exact (ih (h.lapse ms) hlate hnoted).trans (lapse_ahead ms hlate)
    · have hnone : noted = [] := by
        refine List.eq_nil_iff_forall_not_mem.mpr fun note hnote => ?_
        have hle : t.now + ms ≤ note.1 := proceeds.later note hnote
        have hhorizon := hnoted note hnote
        omega
      rw [hnone]
      exact Nat.zero_le _
  | @release t _ _ _ ih =>
    have hahead : t.release.ahead horizon = t.ahead horizon := by
      rw [ahead, ahead, release_now, release_rank]
    rw [← hahead]
    exact ih h.release (t.release_now ▸ hnow) hnoted

theorem run_proceeds (hnow : t.now ≤ horizon) (fuel : Nat) :
    ∃ noted, t.Proceeds noted (run horizon fuel t) ∧ ∀ note ∈ noted, note.1 ≤ horizon := by
  induction fuel generalizing t with
  | zero => exact ⟨[], .stay, nofun⟩
  | succ fuel ih =>
    by_cases hdue : t.Due horizon
    · obtain ⟨time, event, upcoming, hdue⟩ := hdue
      have hlater := t.handle_now time event
      obtain ⟨noted, proceeds, hnoted⟩ := ih (t := t.handle time event) (by omega)
      rw [run_of_due upcoming hdue]
      exact ⟨_, .event upcoming proceeds, List.forall_mem_cons.mpr ⟨by omega, hnoted⟩⟩
    · rw [run_of_not_due hdue]
      exact ⟨[], .stay, nofun⟩

/-- Whatever has happened, and however long utterances and the chime take, from
now on at most five events come at one moment until the next command. So up to a
time there are at most five for each millisecond, and a run up to that time ends
with none left that is due. -/
theorem five_events_at_once (gateways : Gateways) (history : List Occurrence) :
    let t := ({ gateways } : Timeline).after history
    (∀ noted u, t.Proceeds noted u → ∀ moment, noted.countP (·.1 = moment) ≤ 5) ∧
      ∀ horizon, t.now ≤ horizon →
        (∀ noted u, t.Proceeds noted u → (∀ note ∈ noted, note.1 ≤ horizon) →
          noted.length ≤ 5 * (horizon + 1 - t.now)) ∧
        ∃ noted u, t.Proceeds noted u ∧ (∀ note ∈ noted, note.1 ≤ horizon) ∧
          t.runTo horizon = { u with now := horizon } ∧ ¬ (t.runTo horizon).Due horizon := by
  intro t
  have h : t.InStep := (InStep.start gateways).after history
  refine ⟨fun noted u p moment => (p.count_le h moment).trans (t.room_le moment),
    fun horizon hnow => ⟨fun noted u p hnoted => ?_, ?_⟩⟩
  · exact (p.length_le h hnow hnoted).trans (ahead_le_eventBound hnow)
  · obtain ⟨noted, proceeds, hnoted⟩ := run_proceeds hnow (t.eventBound horizon)
    refine ⟨noted, _, proceeds, hnoted, ?_, h.runTo_not_due hnow⟩
    rw [runTo, Nat.max_eq_right hnow]

end

-- ---------------------------------------------------------------------------
-- A run without any delays
-- ---------------------------------------------------------------------------

/-- One tick for the whole run, nothing takes any time, and it starts again at once. -/
def relentless : Settings :=
  { tenSeconds with
    sayStart := true, sayEnd := true, endChime := true, tick := 10000, speechTimeout := 0,
    autoRestart := some 0 }

def relentlessSession : Session :=
  { tenSecondsSession with
    sayStart := true, sayEnd := true, endChime := true, tick := 10000, speechTimeout := 0,
    autoRestart := some 0 }

set_option maxRecDepth 10000 in
theorem relentless_session : relentless.session = .ok relentlessSession := by
  have h : relentless.session = .ok _ := rfl
  rw [h, Reconciliation.reconcile_of_descending (by decide +kernel)]
  decide +kernel

/-- All five come at the end of the run, and up to that moment there are no others. -/
theorem five_events_at_once_relentless :
    let gateways : Gateways := { speech := fun _ _ => .held }
    let t := ({ gateways } : Timeline).after
      [.command (.configure relentless), .command .start, .waitOver]
    let noted : List (Nat × Event) :=
      [(10000, .tick), (10000, .waitOver .endMessage), (10000, .waitOver .chime),
        (10000, .waitOver .autoRestart), (10000, .waitOver .startMessage)]
    t.now = 0 ∧ (∃ u, t.Proceeds noted u) ∧ noted.countP (·.1 = 10000) = 5 ∧
      (∀ moment, noted.countP (·.1 = moment) ≤ 5) ∧ noted.length ≤ 5 * (10000 + 1 - t.now) := by
  intro gateways t noted
  have hready := after_configure relentless_session gateways
  have ht : t = (({ gateways } : Timeline).after [.command (.configure relentless)]).after
      [.command .start, .waitOver] := rfl
  rw [hready] at ht
  have proceeds : ∃ u, t.Proceeds noted u := by
    rw [ht]
    refine ⟨_, .on_time ?_ ?_ (.on_time ?_ ?_ (.on_time ?_ ?_ (.on_time ?_ ?_
      (.on_time ?_ ?_ .stay))))⟩
    all_goals decide +kernel
  have hnow : t.now = 0 := by rw [ht]; rfl
  obtain ⟨u, proceeds⟩ := proceeds
  have most := five_events_at_once gateways
    [.command (.configure relentless), .command .start, .waitOver]
  exact ⟨hnow, ⟨u, proceeds⟩, by decide, most.1 noted u proceeds,
    (most.2 10000 (by rw [hnow]; decide)).1 noted u proceeds (by decide)⟩

end Timeline

end SpokenCountdown
