import SpokenCountdown.Proofs.Timeline.Forecast
import SpokenCountdown.Proofs.Timeline.Quiet

/-!
# A refused command leaves no trace

A caller commands a timeline, lets time pass and releases utterances, and is
told of each deed what it came to. A command that is refused, other than for its
settings, leaves the timeline as it was, so the reports of what follows are those
of a caller who never gave it.

The first command makes the label appear, and every command calls an automatic
restart off; both show even if the command is refused.
-/

namespace SpokenCountdown

open Countdown

inductive Deed where
  | command (command : Command)
  | lull (lull : Lull)
  deriving DecidableEq, Repr

/-- What a caller is told of a deed: when it was over, the answer to a command,
the snapshot after it, and what was spoken and changed meanwhile. -/
structure Report where
  time : Nat
  answer : Option (Except Refusal State)
  snapshot : Snapshot
  entries : List Entry

namespace Timeline

def obey (t : Timeline) : Deed → Timeline × Option (Except Refusal State)
  | .command command => ((t.perform command).1.settle, some (t.perform command).2)
  | .lull lull => (t.lull lull, none)

def report (t : Timeline) (deed : Deed) : Report × Timeline :=
  let done := t.obey deed
  (⟨done.1.now, done.2, done.1.snapshot, done.1.takeJournal.1⟩, done.1.takeJournal.2)

def reports (t : Timeline) : List Deed → List Report
  | [] => []
  | deed :: rest => (t.report deed).1 :: (t.report deed).2.reports rest

def upon (t : Timeline) : List Deed → Timeline
  | [] => t
  | deed :: rest => (t.report deed).2.upon rest

theorem upon_append (t : Timeline) (first second : List Deed) :
    t.upon (first ++ second) = (t.upon first).upon second := by
  induction first generalizing t with
  | nil => rfl
  | cons deed rest ih => exact ih (t.report deed).2

theorem reports_append (t : Timeline) (first second : List Deed) :
    t.reports (first ++ second) = t.reports first ++ (t.upon first).reports second := by
  induction first generalizing t with
  | nil => rfl
  | cons deed rest ih => exact congrArg ((t.report deed).1 :: ·) (ih (t.report deed).2)

section
variable {t : Timeline} {command : Command} {refusal : Refusal}

-- ---------------------------------------------------------------------------
-- The command itself
-- ---------------------------------------------------------------------------

theorem apply_error {step : Step (Except Refusal α)} {follow : Timeline → α → Timeline}
    (h : (t.apply step follow).2 = .error refusal) :
    step.value = .error refusal ∧ (t.apply step follow).1 = t.moved step := by
  unfold apply at h ⊢
  cases hvalue : step.value with
  | error cause =>
    simp only [hvalue, Except.error.injEq] at h
    exact ⟨congrArg Except.error h, rfl⟩
  | ok value =>
    simp only [hvalue] at h
    cases h

theorem carryOut_error (h : (t.carryOut command).2 = .error refusal) :
    (t.countdown.perform (command.operation t.instant)).value = .error refusal ∧
      (t.carryOut command).1 = t.moved (t.countdown.perform (command.operation t.instant)) := by
  cases command <;>
  · obtain ⟨hvalue, hmoved⟩ := apply_error h
    refine ⟨?_, hmoved⟩
    simp only [Command.operation, Countdown.perform, Step.answering, hvalue]
    rfl

theorem addressed_self (hanswered : t.answered = true) (hawaits : t.awaits ≠ some .autoRestart) :
    t.addressed = t := by
  have hwait : t.wait.filter (·.kind ≠ .autoRestart) = t.wait := by
    cases hw : t.wait with
    | none => rfl
    | some wait =>
      have hkind : wait.kind ≠ .autoRestart := by
        intro hkind
        exact hawaits (by rw [awaits, hw, Option.map_some, hkind])
      simp [hkind]
  rw [addressed_eq, hwait, ← hanswered]

theorem perform_refused (hanswered : t.answered = true)
    (hawaits : t.awaits ≠ some .autoRestart) (hrefused : (t.perform command).2 = .error refusal)
    (hcause : ∀ cause, refusal ≠ .badSettings cause) : (t.perform command).1 = t := by
  cases hclosed : t.closed with
  | true => simp [perform, hclosed]
  | false =>
    rw [perform_eq hclosed, addressed_self hanswered hawaits] at hrefused ⊢
    obtain ⟨hvalue, hmoved⟩ := carryOut_error hrefused
    obtain ⟨hcountdown, hchanges⟩ := perform_error hvalue hcause
    rw [hmoved, moved, hcountdown, hchanges]
    rfl

-- ---------------------------------------------------------------------------
-- Between two deeds
-- ---------------------------------------------------------------------------

theorem InStep.runTo (h : t.InStep) (horizon : Nat) : (t.runTo horizon).InStep := by
  obtain ⟨history, hrun⟩ := t.runTo_after horizon
  exact hrun ▸ h.after history

structure Settled (t : Timeline) : Prop where
  inStep : t.InStep
  not_due : ¬ t.Due t.now

theorem Settled.start (gateways : Gateways) : Settled { gateways } := by
  refine ⟨.start gateways, not_due_of_upcoming_none ?_⟩
  rfl

theorem InStep.runTo_settled {horizon : Nat} (h : t.InStep) (hnow : t.now ≤ horizon) :
    (t.runTo horizon).Settled := by
  have hhorizon : (t.runTo horizon).now = horizon := Nat.max_eq_right hnow
  refine ⟨h.runTo horizon, ?_⟩
  rw [hhorizon]
  exact h.runTo_not_due hnow

theorem Settled.settle_eq (h : t.Settled) : t.settle = t := by
  rw [settle, runTo_of_not_due h.not_due, Nat.max_self]

theorem obey_settled (h : t.InStep) (deed : Deed) : (t.obey deed).1.Settled := by
  cases deed with
  | command command =>
    exact InStep.runTo_settled (h.turn (t.happen_turn (.command command))) (Nat.le_refl _)
  | lull lull =>
    cases lull with
    | sleep ms => exact h.runTo_settled (Nat.le_add_right _ ms)
    | release => exact InStep.runTo_settled (h.turn t.release_turn) (Nat.le_refl _)

theorem Settled.report (h : t.Settled) (deed : Deed) : (t.report deed).2.Settled := by
  have hobey := obey_settled h.inStep deed
  exact ⟨⟨hobey.inStep.sound, hobey.inStep.origin, hobey.inStep.awaiting⟩, hobey.not_due⟩

theorem Settled.upon (h : t.Settled) (deeds : List Deed) : (t.upon deeds).Settled := by
  induction deeds generalizing t with
  | nil => exact h
  | cons deed rest ih => exact ih (h.report deed)

theorem upon_journal (h : t.journal = []) (deeds : List Deed) : (t.upon deeds).journal = [] := by
  induction deeds generalizing t with
  | nil => exact h
  | cons deed rest ih => exact ih rfl

theorem Settled.report_eq (h : t.Settled) (hjournal : t.journal = [])
    (hrefused : (t.perform command).2 = .error refusal) (hkept : (t.perform command).1 = t) :
    t.report (.command command) = (⟨t.now, some (.error refusal), t.snapshot, []⟩, t) := by
  have hobey : t.obey (.command command) = (t, some (.error refusal)) := by
    rw [obey, hkept, h.settle_eq, hrefused]
  have htake : t.takeJournal = ([], t) := by
    obtain ⟨gateways, now, countdown, wait, nextTick, answered, closed, journal⟩ := t
    cases hjournal
    rfl
  rw [Timeline.report, hobey, htake]

end

/-- Whatever happened before, a refused command keeps the countdown, the wait
with its end, the next tick, the snapshot and the journal, and so every future.
Between the deeds of a caller it is one report more, without an entry in it: all
other reports, before and after, are those of the same deeds without it. -/
theorem refusal_unobserved (gateways : Gateways) (command : Command) (refusal : Refusal)
    (hcause : ∀ cause, refusal ≠ .badSettings cause) :
    (∀ history, let t := ({ gateways } : Timeline).after history
      t.answered = true → t.awaits ≠ some .autoRestart →
      (t.perform command).2 = .error refusal →
        let u := (t.perform command).1
        (u.countdown = t.countdown ∧ u.wait = t.wait ∧ u.nextTick = t.nextTick ∧
          u.snapshot = t.snapshot ∧ u.journal = t.journal) ∧
        ∀ later, u.after later = t.after later) ∧
    (∀ before, let t := ({ gateways } : Timeline).upon before
      t.answered = true → t.awaits ≠ some .autoRestart →
      (t.perform command).2 = .error refusal →
        (t.perform command).1 = t ∧ ∀ later,
          ({ gateways } : Timeline).reports (before ++ .command command :: later) =
            ({ gateways } : Timeline).reports before ++
              ⟨t.now, some (.error refusal), t.snapshot, []⟩ :: t.reports later ∧
          ({ gateways } : Timeline).reports (before ++ later) =
            ({ gateways } : Timeline).reports before ++ t.reports later) := by
  constructor
  · intro history t hanswered hawaits hrefused
    have hkept : (t.perform command).1 = t := perform_refused hanswered hawaits hrefused hcause
    rw [hkept]
    exact ⟨⟨rfl, rfl, rfl, rfl, rfl⟩, fun later => rfl⟩
  · intro before t hanswered hawaits hrefused
    have h : t.Settled := (Settled.start gateways).upon before
    have hkept := perform_refused hanswered hawaits hrefused hcause
    have hreport := h.report_eq (upon_journal rfl before) hrefused hkept
    refine ⟨hkept, fun later => ⟨?_, reports_append _ before later⟩⟩
    rw [reports_append, reports, hreport]

-- ---------------------------------------------------------------------------
-- A pause that comes during the start message
-- ---------------------------------------------------------------------------

theorem upon_configure {settings : Settings} {session : Session}
    (h : settings.session = .ok session) (gateways : Gateways) :
    ({ gateways } : Timeline).upon [.command (.configure settings)] =
      { gateways, countdown := .loaded session .ready, answered := true } := by
  have hperform : ((({ gateways } : Timeline).perform (.configure settings)).1) =
      { gateways, countdown := .loaded session .ready, answered := true,
        journal := [.change ⟨.unset, .ready⟩] } := by
    simp only [Timeline.perform, cancelAutoRestart, configure, Countdown.state, h]
    rfl
  simp only [upon, report, obey, hperform]
  rw [settle, runTo_of_not_due (not_due_of_upcoming_none rfl)]
  rfl

/-- The message goes on being waited for, and its end is all that is heard of later. -/
theorem refusal_unobserved_pause :
    let gateways : Gateways := { speech := fun _ _ => .held }
    let before : List Deed := [.command (.configure eager), .command .start, .lull (.sleep 3)]
    let t := ({ gateways } : Timeline).upon before
    t.wait = some ⟨.startMessage, 15000, true⟩ ∧
      (t.perform .pause).2 = .error (.wrongState .pause .starting) ∧
      (t.perform .pause).1.wait = t.wait ∧
      (({ gateways } : Timeline).reports
          (before ++ [.command .pause, .lull .release])).map (·.entries) =
        (({ gateways } : Timeline).reports before).map (·.entries) ++
          [[], [.change ⟨.starting, .running⟩]] := by
  intro gateways before t
  have hready := upon_configure eager_session gateways
  have ht : t = (({ gateways } : Timeline).upon [.command (.configure eager)]).upon
      [.command .start, .lull (.sleep 3)] := upon_append { gateways } [_] _
  rw [hready] at ht
  have hanswered : t.answered = true := by rw [ht]; decide +kernel
  have hwait : t.wait = some ⟨.startMessage, 15000, true⟩ := by rw [ht]; decide +kernel
  have hrefused : (t.perform .pause).2 = .error (.wrongState .pause .starting) := by
    rw [ht]
    decide +kernel
  have hreleased : (t.reports [.lull .release]).map (·.entries) =
      [[.change ⟨.starting, .running⟩]] := by
    rw [ht]
    decide +kernel
  have hawaits : t.awaits ≠ some .autoRestart := by
    rw [awaits, hwait]
    decide
  have hother : ∀ cause, Refusal.wrongState .pause .starting ≠ .badSettings cause := by
    intro cause h
    cases h
  obtain ⟨hkept, hreports⟩ :=
    (refusal_unobserved gateways .pause _ hother).2 before hanswered hawaits hrefused
  refine ⟨hwait, hrefused, congrArg Timeline.wait hkept, ?_⟩
  rw [(hreports [.lull .release]).1, List.map_append, List.map_cons, hreleased]

end Timeline

end SpokenCountdown
