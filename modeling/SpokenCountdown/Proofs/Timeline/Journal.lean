import SpokenCountdown.Proofs.Countdown.Route
import SpokenCountdown.Proofs.Timeline.Occurrence

/-!
# What the journal tells

The journal of a timeline tells the state of its countdown, and which calls to
the gateways were made since it last became ready. An occurrence adds to it what
one operation of the countdown comes through and asks for, and takes nothing
away: `Turn.journal`, `journal_after`.
-/

namespace SpokenCountdown

open Countdown

inductive Call where
  | say (text : String) (rate : Binary)
  | chime
  deriving DecidableEq, Repr

def Call.entry (now : Nat) : Call → Entry
  | .say text rate => .say now text rate
  | .chime => .chime now

namespace Entry

def call? : Entry → Option Call
  | .change _ => none
  | .say _ text rate => some (.say text rate)
  | .chime _ => some .chime

def entersReady : Entry → Bool
  | .change c => c.current = .ready
  | _ => false

end Entry

namespace Journal

def state : List Entry → State
  | [] => .unset
  | .change c :: _ => c.current
  | .say .. :: before | .chime _ :: before => state before

/-- The calls since the countdown last became ready, in order of time. -/
def calls : List Entry → List Call
  | [] => []
  | entry :: before => if entry.entersReady then [] else calls before ++ entry.call?.toList

def through (journal : List Entry) (s : State) (path : List State) : List Entry :=
  ((changesAlong s path).map Entry.change).reverse ++ journal

section
variable {journal before : List Entry} {entry : Entry} {s next : State} {path : List State}
  {call : Call} {now : Nat}

@[simp] theorem through_nil : through journal s [] = journal := rfl

theorem through_cons :
    through journal s (next :: path) =
      if s = next then through journal next path
      else through (.change ⟨s, next⟩ :: journal) next path := by
  simp only [through, changesAlong]
  split <;> simp

@[simp] theorem through_stay : through journal s (s :: path) = through journal s path := by
  rw [through_cons, if_pos rfl]

@[simp] theorem state_entry : state (call.entry now :: journal) = state journal := by
  cases call <;> rfl

@[simp] theorem calls_entry : calls (call.entry now :: journal) = calls journal ++ [call] := by
  cases call <;> rfl

theorem state_through (h : state journal = s) :
    state (through journal s path) = path.getLast?.getD s := by
  induction path generalizing journal s with
  | nil => exact h
  | cons next rest ih =>
    rw [through_cons, List.getLast?_cons, Option.getD_some]
    split
    · exact ih (h.trans ‹_›)
    · exact ih rfl

theorem calls_through (h : State.ready ∉ path) :
    calls (through journal s path) = calls journal := by
  induction path generalizing journal s with
  | nil => rfl
  | cons next rest ih =>
    obtain ⟨hnext, hrest⟩ := List.ne_and_not_mem_of_not_mem_cons h
    rw [through_cons]
    split
    · exact ih hrest
    · rw [ih hrest]
      simp [calls, Entry.entersReady, Entry.call?, hnext.symm]

theorem calls_through_ready (h : State.ready ∉ path) (hready : s = .ready → calls journal = []) :
    calls (through journal s (.ready :: path)) = [] := by
  rw [through_cons]
  split
  · rw [calls_through h, hready ‹_›]
  · rw [calls_through h]
    rfl

end

end Journal

-- ---------------------------------------------------------------------------
-- The call that an answer asks for
-- ---------------------------------------------------------------------------

namespace Countdown

def StartPlan.call? : StartPlan → Option Call
  | .speak message => some (.say message Rate.normal)
  | .running => none

def EndStep.call? : EndStep → Option Call
  | .speak message => some (.say message Rate.normal)
  | .chime => some .chime
  | .done _ => none

def Reply.call? : Reply → Option Call
  | .started plan => plan.call?
  | .ticked (.announce a) => some (.say a.message a.rate)
  | .ticked (.finished step) | .stopped step | .advanced (some step) => step.call?
  | _ => none

def asked : Answer → Option Call
  | .ok reply => reply.call?
  | .error _ => none

end Countdown

-- ---------------------------------------------------------------------------
-- What an occurrence leaves in the journal
-- ---------------------------------------------------------------------------

def Gateways.heard (gateways : Gateways) (now : Nat) (call? : Option Call) : List Entry :=
  if gateways.recorded then (call?.map (·.entry now)).toList else []

namespace Journal

section
variable {journal : List Entry} {gateways : Gateways} {now : Nat} {call? : Option Call}

theorem state_heard : state (gateways.heard now call? ++ journal) = state journal := by
  unfold Gateways.heard
  split
  · cases call? with
    | none => rfl
    | some call => exact state_entry
  · rfl

theorem calls_heard :
    calls (gateways.heard now call? ++ journal) =
      calls journal ++ if gateways.recorded then call?.toList else [] := by
  unfold Gateways.heard
  split
  · cases call? with
    | none => exact (List.append_nil _).symm
    | some call => exact calls_entry
  · exact (List.append_nil _).symm

end

end Journal

namespace Timeline

section
variable {t u : Timeline} {op : Operation}

theorem say_journal (t : Timeline) (text : String) (rate : Binary) :
    (t.say text rate).journal = t.gateways.heard t.now (some (.say text rate)) ++ t.journal := by
  unfold say Gateways.heard
  split <;> rfl

theorem playChime_journal (t : Timeline) :
    t.playChime.journal = t.gateways.heard t.now (some .chime) ++ t.journal := by
  unfold playChime Gateways.heard
  split <;> rfl

theorem heard_none (t : Timeline) : t.journal = t.gateways.heard t.now none ++ t.journal := by
  unfold Gateways.heard
  split <;> rfl

theorem followStart_journal (t : Timeline) (plan : StartPlan) :
    (t.followStart plan).journal = t.gateways.heard t.now plan.call? ++ t.journal := by
  cases plan with
  | speak message => exact t.say_journal message Rate.normal
  | running => exact t.heard_none

theorem followEnd_journal (t : Timeline) (step : EndStep) :
    (t.followEnd step).journal = t.gateways.heard t.now step.call? ++ t.journal := by
  rcases step with message | _ | ⟨_ | delay⟩
  · exact t.say_journal message Rate.normal
  · exact t.playChime_journal
  · exact t.heard_none
  · exact t.heard_none

theorem respond_journal (t : Timeline) (answer : Answer) :
    (t.respond answer).journal = t.gateways.heard t.now (asked answer) ++ t.journal := by
  rcases answer with refusal | (_ | plan | (_ | a | step) | step | (_ | step))
  case ok.started => exact followStart_journal { t with wait := none } plan
  case ok.ticked.announce => exact t.say_journal a.message a.rate
  case ok.ticked.finished => exact t.followEnd_journal step
  case ok.stopped => exact followEnd_journal { t with wait := none } step
  case ok.advanced.some => exact followEnd_journal { t with wait := none } step
  all_goals exact t.heard_none

theorem Reacts.journal (h : t.Reacts op u) :
    u.journal = t.gateways.heard t.now (asked (t.countdown.perform op).value) ++
      Journal.through t.journal t.countdown.state
        (route u.countdown (t.countdown.perform op).value) := by
  have hmoved : (t.moved (t.countdown.perform op)).journal =
      Journal.through t.journal t.countdown.state
        (route (t.countdown.perform op).countdown (t.countdown.perform op).value) := by
    simp only [moved, perform_changes, Journal.through]
  rw [h.countdown, ← hmoved]
  obtain ⟨next, rfl⟩ := h
  exact respond_journal ..

/-- An occurrence leaves the journal alone, or leaves in it what one operation
of the countdown comes through and asks for. -/
theorem Turn.journal (h : Turn t u) :
    u.gateways = t.gateways ∧
      ((u.countdown = t.countdown ∧ u.journal = t.journal) ∨
        ∃ op now, u.countdown = (t.countdown.perform op).countdown ∧
          u.journal = t.gateways.heard now (asked (t.countdown.perform op).value) ++
            Journal.through t.journal t.countdown.state
              (route u.countdown (t.countdown.perform op).value)) := by
  cases h with
  | idle countdown journal gateways => exact ⟨gateways, .inl ⟨countdown, journal⟩⟩
  | commanded reacts =>
    have hgateways := reacts.gateways
    have hcountdown := reacts.countdown
    have hjournal := reacts.journal
    rw [addressed_eq] at hgateways hcountdown hjournal
    exact ⟨hgateways, .inr ⟨_, _, hcountdown, hjournal⟩⟩
  | ticked running reacts =>
    exact ⟨reacts.gateways, .inr ⟨_, _, reacts.countdown, reacts.journal⟩⟩
  | waited pending reacts =>
    exact ⟨reacts.gateways, .inr ⟨_, _, reacts.countdown, reacts.journal⟩⟩
  | dropped reacts =>
    exact ⟨reacts.gateways, .inr ⟨_, _, reacts.countdown, reacts.journal⟩⟩

theorem Turn.journal_suffix (h : Turn t u) : t.journal <:+ u.journal := by
  obtain ⟨-, ⟨-, hjournal⟩ | ⟨op, now, -, hjournal⟩⟩ := h.journal
  · exact hjournal ▸ List.suffix_refl _
  · rw [hjournal, Journal.through]
    exact (List.suffix_append ..).trans (List.suffix_append ..)

theorem gateways_after (t : Timeline) (history : List Occurrence) :
    (t.after history).gateways = t.gateways := by
  induction history generalizing t with
  | nil => rfl
  | cons o rest ih => exact (ih (t.happen o)).trans (t.happen_turn o).journal.1

theorem journal_after (t : Timeline) (history : List Occurrence) :
    t.journal <:+ (t.after history).journal := by
  induction history generalizing t with
  | nil => exact List.suffix_refl _
  | cons o rest ih => exact (t.happen_turn o).journal_suffix.trans (ih (t.happen o))

end

end Timeline

end SpokenCountdown
