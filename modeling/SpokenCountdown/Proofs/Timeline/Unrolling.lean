import SpokenCountdown.Proofs.Timeline.Journal
import SpokenCountdown.Proofs.Timeline.Moment

/-!
# One event after the other

`Unrolls` follows a timeline from event to event and notes what each leaves in
the journal and when. Where it ends or goes beyond a horizon, it tells the
journal of letting time pass up to that horizon (`Unrolls.journal_runTo`). What
one event does is read off the operation it asks for (`Shows.next`).
-/

namespace SpokenCountdown

open Countdown

/-- How long the end of an utterance that begins at `time` is waited for. -/
def Gateways.patience (gateways : Gateways) (limit time : Nat) (text : String) : Nat :=
  match gateways.speech time text with
  | .immediate => 0
  | .held => limit
  | .after ms => min ms limit

def Event.operation (now : Nat) : Event → Operation
  | .tick => .tick now
  | .waitOver kind => kind.operation now

def Countdown.State.traces (s : State) (d : Countdown) (reply : Reply) (time : Nat) : List Entry :=
  (changesAlong s (route d (.ok reply))).map .change ++ (reply.call?.map (·.entry time)).toList

namespace Countdown

def speechLimit (c : Countdown) : Nat :=
  c.session?.elim 15000 (·.speechTimeout)

def dueAtEnd (d : Countdown) (gateways : Gateways) (time : Nat) : EndStep → Option (WaitKind × Nat)
  | .speak message =>
    some (.endMessage, time + gateways.patience d.speechLimit time message)
  | .chime => some (.chime, time + gateways.chime)
  | .done delay => delay.map fun delay => (.autoRestart, time + delay)

def due (d : Countdown) (gateways : Gateways) (time : Nat) : Reply → Option (WaitKind × Nat)
  | .started (.speak message) =>
    some (.startMessage, time + gateways.patience d.speechLimit time message)
  | .ticked (.finished step) | .stopped step | .advanced (some step) =>
    d.dueAtEnd gateways time step
  | _ => none

end Countdown

namespace Timeline

inductive Unrolls : Timeline → List (Nat × Entry) → Timeline → Prop where
  | stay {t : Timeline} : Unrolls t [] t
  | next {t u : Timeline} {time : Nat} {event : Event} {entries : List Entry}
      {rest : List (Nat × Entry)} (upcoming : t.upcoming = some (time, event))
      (later : t.now ≤ time)
      (journal : (t.handle time event).journal = entries.reverse ++ t.journal)
      (unrolls : Unrolls (t.handle time event) rest u) :
      Unrolls t (entries.map (time, ·) ++ rest) u

section
variable {t u v : Timeline} {first second noted : List (Nat × Entry)} {horizon : Nat}

theorem Unrolls.trans (h : Unrolls t first u) (g : Unrolls u second v) :
    Unrolls t (first ++ second) v := by
  induction h with
  | stay => exact g
  | next upcoming later journal _ ih =>
    rw [List.append_assoc]
    exact .next upcoming later journal (ih g)

theorem Unrolls.later (h : Unrolls t noted u) : ∀ note ∈ noted, t.now ≤ note.1 := by
  induction h with
  | stay => exact nofun
  | @next t u time event entries rest upcoming later journal _ ih =>
    have hnow := t.handle_now time event
    intro note hnote
    rcases List.mem_append.mp hnote with hnote | hnote
    · obtain ⟨entry, -, rfl⟩ := List.mem_map.mp hnote
      exact later
    · have hle := ih note hnote
      omega

theorem Unrolls.journal_runTo (h : Unrolls t noted u) (hstep : t.InStep) (hnow : t.now ≤ horizon)
    (hdone : u.upcoming = none ∨ horizon < u.now) :
    (t.runTo horizon).journal =
      ((noted.filter (·.1 ≤ horizon)).map (·.2)).reverse ++ t.journal := by
  induction h with
  | @stay t =>
    have hnot : ¬ t.Due horizon := not_due_of_upcoming_none (hdone.resolve_right (by omega))
    rw [runTo_of_not_due hnot]
    rfl
  | @next t u time event entries rest upcoming later journal unrolls ih =>
    have hhandled := t.handle_now time event
    by_cases hdue : time ≤ horizon
    · rw [hstep.runTo_of_due upcoming hnow hdue, ih (hstep.handle upcoming) (by omega) hdone,
        journal]
      simp [hdue, List.filter_map, Function.comp_def]
    -- what comes next is beyond the horizon, so all that is noted is
    · have hnot : ¬ t.Due horizon := by
        rintro ⟨other, _, hother, hle⟩
        cases upcoming.symm.trans hother
        exact hdue hle
      have hlate : ∀ note ∈ entries.map (time, ·) ++ rest, ¬ decide (note.1 ≤ horizon) = true := by
        intro note hnote
        rw [decide_eq_true_eq]
        rcases List.mem_append.mp hnote with hnote | hnote
        · obtain ⟨entry, -, rfl⟩ := List.mem_map.mp hnote
          exact hdue
        · have hle := unrolls.later note hnote
          omega
      rw [runTo_of_not_due hnot, List.filter_eq_nil_iff.mpr hlate]
      rfl

-- ---------------------------------------------------------------------------
-- What one event does
-- ---------------------------------------------------------------------------

def until? (t : Timeline) : Option (WaitKind × Nat) :=
  t.wait.map fun wait => (wait.kind, wait.endsAt)

theorem sayAndWait_until (t : Timeline) (kind : WaitKind) (text : String) :
    (t.sayAndWait kind text).until? =
      some (kind, t.now + t.gateways.patience t.countdown.speechLimit t.now text) := by
  simp only [sayAndWait, until?, Gateways.patience, speechLimit, Option.map_some]
  cases t.gateways.speech t.now text <;> rfl

theorem followEnd_until (h : t.wait = none) (step : EndStep) :
    (t.followEnd step).until? = t.countdown.dueAtEnd t.gateways t.now step := by
  rcases step with message | _ | ⟨_ | delay⟩
  · exact t.sayAndWait_until .endMessage message
  · rfl
  · exact congrArg (Option.map _) h
  · rfl

theorem respond_until (h : t.wait = none) (reply : Reply) :
    (t.respond (.ok reply)).until? = t.countdown.due t.gateways t.now reply := by
  rcases reply with _ | (message | _) | (_ | a | step) | step | (_ | step)
  case started.speak => exact sayAndWait_until { t with wait := none } .startMessage message
  case ticked.announce =>
    simp only [respond, say, until?]
    split <;> simp [record, h, due]
  case ticked.finished => exact followEnd_until h step
  case stopped => exact followEnd_until (t := { t with wait := none }) rfl step
  case advanced.some => exact followEnd_until (t := { t with wait := none }) rfl step
  all_goals simp [respond, followStart, restartTicks, until?, h, due]

structure Shows (t : Timeline) (gateways : Gateways) (now : Nat) (c : Countdown)
    (wait : Option (WaitKind × Nat)) : Prop where
  inStep : t.InStep
  setting : t.setting = (now, gateways, false, c)
  waits : t.until? = wait
  paced : t.Paced

variable {gateways : Gateways} {now time : Nat} {c d : Countdown} {wait : Option (WaitKind × Nat)}
  {event : Event} {reply : Reply}

theorem handle_reacts (h : t.InStep) (upcoming : t.upcoming = some (time, event))
    (later : t.now ≤ time) :
    Reacts { t with now := time, wait := none } (event.operation (time * 1000))
      (t.handle time event) := by
  unfold handle
  rw [Nat.max_eq_right later]
  cases event with
  | tick =>
    have running := (upcoming_tick upcoming).2.1
    have hsame : ({ t with now := time, wait := none } : Timeline) = { t with now := time } := by
      rw [← h.wait_of_running running]
    rw [hsame]
    exact onTick_reacts _
  | waitOver kind => exact onWaitOver_reacts _ kind

theorem Reacts.until {op : Operation} (h : t.Reacts op u) (hwait : t.wait = none)
    (hreply : (t.countdown.perform op).value = .ok reply) :
    u.until? = (t.countdown.perform op).countdown.due t.gateways t.now reply := by
  obtain ⟨next, rfl⟩ := h
  simp only [react, hreply]
  exact respond_until (t := t.moved _) hwait reply

theorem traces_reverse {s : State} {journal : List Entry} (recorded : gateways.recorded = true) :
    gateways.heard time (asked (.ok reply)) ++ Journal.through journal s (route d (.ok reply)) =
      (s.traces d reply time).reverse ++ journal := by
  simp only [Gateways.heard, recorded, Journal.through, State.traces, asked]
  cases reply.call? <;> simp

theorem Shows.now_eq (h : t.Shows gateways now c wait) : t.now = now :=
  congrArg (·.1) h.setting

theorem Shows.countdown_eq (h : t.Shows gateways now c wait) : t.countdown = c :=
  congrArg (·.2.2.2) h.setting

theorem Shows.session_sound {session : Session} {run : Run}
    (h : t.Shows gateways now (.loaded session run) wait) : session.Sound ∧ 0 < session.tick := by
  have hsound := h.inStep.sound
  have hticking := h.inStep.ticking session
  rw [h.countdown_eq] at hsound hticking
  exact ⟨hsound.1, hticking rfl⟩

theorem Shows.next (h : t.Shows gateways now c wait) (recorded : gateways.recorded = true)
    (upcoming : t.upcoming = some (time, event)) (later : now ≤ time)
    (hreply : (c.perform (event.operation (time * 1000))).value = .ok reply)
    (hd : (c.perform (event.operation (time * 1000))).countdown = d) :
    ∃ u, Unrolls t ((c.state.traces d reply time).map (time, ·)) u ∧
      u.Shows gateways time d (d.due gateways time reply) := by
  obtain ⟨rfl, rfl, hopen, rfl⟩ : t.now = now ∧ t.gateways = gateways ∧ t.closed = false ∧
    t.countdown = c := by simpa [Timeline.setting] using h.setting
  have reacts := handle_reacts h.inStep upcoming later
  have hjournal := reacts.journal
  have hcountdown := reacts.countdown
  have hsetting := reacts.setting
  simp only [hreply, hd] at hjournal hcountdown hsetting
  refine ⟨t.handle time event, ?_, h.inStep.handle upcoming, ?_, ?_, h.inStep.handle_paced upcoming⟩
  · rw [← List.append_nil (List.map _ _)]
    refine .next upcoming later ?_ .stay
    rw [hjournal, hcountdown]
    exact traces_reverse recorded
  · rw [hsetting, hopen]
  · rw [reacts.until rfl hreply, hd]

theorem Shows.upcoming_tick {session : Session} {remaining anchor : Nat} {queue : Queue}
    (h : t.Shows gateways now (.loaded session (.running remaining queue anchor)) none) :
    t.upcoming = some (now + session.tick, .tick) := by
  obtain ⟨rfl, -, hopen, hc⟩ : t.now = now ∧ t.gateways = gateways ∧ t.closed = false ∧
    t.countdown = _ := by simpa [Timeline.setting] using h.setting
  have running : t.countdown.state = .running := by rw [hc]; rfl
  have hwait : t.wait = none := Option.map_eq_none_iff.mp h.waits
  have hnext : t.nextTick = t.now + session.tick := by
    rw [h.paced running, period, hc]
  simp [upcoming, hopen, running, hwait, hnext]

theorem Shows.upcoming_waitOver {kind : WaitKind}
    (h : t.Shows gateways now c (some (kind, time))) :
    t.upcoming = some (time, .waitOver kind) := by
  have hopen : t.closed = false := congrArg (·.2.2.1) h.setting
  obtain ⟨wait, hwait, hkind⟩ := Option.map_eq_some_iff.mp h.waits
  obtain ⟨rfl, rfl⟩ := Prod.mk.inj hkind
  have running : t.countdown.state ≠ .running := by
    intro running
    cases (h.inStep.wait_of_running running).symm.trans hwait
  simp [upcoming, hopen, running, hwait]

theorem Shows.upcoming_none (h : t.Shows gateways now c none) (hc : c.state ≠ .running) :
    t.upcoming = none := by
  have hwait : t.wait = none := Option.map_eq_none_iff.mp h.waits
  simp [upcoming, hwait, h.countdown_eq, hc]

end

end Timeline

end SpokenCountdown
