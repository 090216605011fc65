import SpokenCountdown.Proofs.Timeline.Journal

/-!
# The programme of a session

What a session has to say, in order: its start message, its announcements up to
some point, its end message, the chime. Whatever cuts in, the calls since the
countdown last became ready are the beginning of such a programme, nothing is
called for while no run is under way, and after a silent stop nothing is until
the countdown is ready again.
-/

namespace SpokenCountdown

open Countdown

-- ---------------------------------------------------------------------------
-- Lawful journals
-- ---------------------------------------------------------------------------

namespace Countdown

def State.Live (s : State) : Prop :=
  s = .starting ∨ s = .running ∨ s = .ending

def State.Over (s : State) : Prop :=
  s = .unset ∨ s = .ended

def State.Leads (s next : State) : Prop :=
  s.Over → next.Over ∨ next = .ready

instance (s : State) : Decidable s.Live :=
  inferInstanceAs (Decidable (_ ∨ _))

instance (s : State) : Decidable s.Over :=
  inferInstanceAs (Decidable (_ ∨ _))

theorem State.Over.not_live {s : State} (h : s.Over) : ¬ s.Live := by
  rcases h with rfl | rfl <;> decide

end Countdown

/-- An entry that can follow where the journal tells `state`. -/
def Entry.Fits (state : State) : Entry → Prop
  | .change c => c.previous = state ∧ state.Leads c.current
  | .say .. | .chime _ => state.Live

namespace Journal

def Lawful : List Entry → Prop
  | [] => True
  | entry :: before => entry.Fits (state before) ∧ Lawful before

section
variable {journal before : List Entry} {entry : Entry} {s : State} {path : List State}
  {call : Call} {call? : Option Call} {gateways : Gateways} {now : Nat}

theorem Lawful.through (h : Lawful journal) (hs : state journal = s)
    (leads : (s :: path).IsChain State.Leads) : Lawful (through journal s path) := by
  induction path generalizing journal s with
  | nil => exact h
  | cons next rest ih =>
    obtain ⟨hnext, hrest⟩ := List.isChain_cons_cons.mp leads
    rw [through_cons]
    split
    · exact ih h (hs.trans ‹_›) hrest
    · exact ih ⟨⟨hs.symm, hs ▸ hnext⟩, h⟩ rfl hrest

theorem Lawful.called (h : Lawful journal) (live : (state journal).Live) :
    Lawful (call.entry now :: journal) := by
  cases call <;> exact ⟨live, h⟩

theorem Lawful.of_suffix (h : Lawful journal) (suffix : before <:+ journal) : Lawful before := by
  obtain ⟨new, rfl⟩ := suffix
  induction new with
  | nil => exact h
  | cons entry rest ih => exact ih h.2

theorem Lawful.live (h : Lawful journal) (suffix : entry :: before <:+ journal)
    (hcall : entry.call?.isSome) : (state before).Live := by
  have fits : entry.Fits (state before) := (h.of_suffix suffix).1
  cases entry with
  | change => cases hcall
  | say | chime => exact fits

/-- Once a countdown is over, nothing is heard of it until it is ready again. -/
theorem Lawful.silent {later : List Entry} (h : Lawful (later.reverse ++ journal))
    (hover : (state journal).Over) :
    ∀ entry ∈ later.takeWhile (!·.entersReady), entry.call? = none := by
  -- entry by entry in order of time, as long as the journal so far tells of an end
  induction later generalizing journal with
  | nil => exact List.forall_mem_nil _
  | cons entry rest ih =>
    rw [List.reverse_cons, List.append_assoc, List.singleton_append] at h
    have fits : entry.Fits (state journal) := (h.of_suffix (List.suffix_append ..)).1
    cases entry with
    | say | chime => exact absurd fits hover.not_live
    | change c =>
      rw [List.takeWhile_cons]
      split
      · rename_i hready
        have hne : c.current ≠ .ready := by simpa [Entry.entersReady] using hready
        have hnext : c.current.Over := (fits.2 hover).resolve_right hne
        exact List.forall_mem_cons.mpr ⟨rfl, ih h hnext⟩
      · exact List.forall_mem_nil _

theorem Lawful.heard (h : Lawful journal) (live : call? = none ∨ (state journal).Live) :
    Lawful (gateways.heard now call? ++ journal) := by
  unfold Gateways.heard
  split
  · cases call? with
    | none => exact h
    | some call => exact h.called (live.resolve_left nofun)
  · exact h

end

end Journal

-- ---------------------------------------------------------------------------
-- One operation
-- ---------------------------------------------------------------------------

namespace Countdown

def continued (calls : List Call) : Operation → Answer → List Call
  | .configure _, .ok _ => []
  | .reset _, .ok _ => []
  | .restart _, .ok _ => []
  | .autoRestart _, .ok _ => []
  | _, _ => calls

section
variable {c d : Countdown} {op : Operation} {answer : Answer} {session : Session}

theorem State.Moves.leads {s next : State} (h : s.Moves next) : s.Leads next := by
  rintro (rfl | rfl) <;> cases next <;> revert h <;> decide

theorem Transition.leads (h : Transition c op answer d) :
    (c.state :: route d answer).IsChain State.Leads :=
  h.moves.imp fun _ _ => State.Moves.leads

theorem calls_route {journal : List Entry} (hready : d.state = .ready → c.state = .ready) :
    Journal.calls (Journal.through journal c.state [d.state]) = Journal.calls journal := by
  by_cases h : d.state = .ready
  · rw [Journal.through_cons, if_pos ((hready h).trans h.symm), Journal.through_nil]
  · exact Journal.calls_through (by simpa using Ne.symm h)

@[simp] theorem continued_error (calls : List Call) (op : Operation) (refusal : Refusal) :
    continued calls op (.error refusal) = calls := by
  cases op <;> rfl

@[simp] theorem continued_nil (op : Operation) (answer : Answer) : continued [] op answer = [] := by
  unfold continued
  split <;> rfl

theorem launched_route (session : Session) (now : Nat) :
    ∃ rest, route (.loaded session (session.launched now))
      (.ok (.started (session.launch now).2)) = .ready :: rest ∧ State.ready ∉ rest := by
  unfold Session.launch Session.launched
  split
  · exact ⟨[.starting], rfl, nofun⟩
  · exact ⟨[.starting, .running], rfl, nofun⟩

theorem Launches.calls {journal : List Entry} {run : Run} (h : Launches run op now) :
    Journal.calls (Journal.through journal run.state (route (.loaded session (session.launched now))
      (.ok (.started (session.launch now).2)))) =
      continued (Journal.calls journal) op (.ok (.started (session.launch now).2)) := by
  obtain ⟨rest, hroute, hrest⟩ := launched_route session now
  rw [hroute]
  cases h with
  | start =>
    show Journal.calls (Journal.through journal .ready (.ready :: rest)) = Journal.calls journal
    rw [Journal.through_stay, Journal.calls_through hrest]
  | restartPaused | restartEnded | autoRestart => exact Journal.calls_through_ready hrest nofun

theorem afterEndMessage_live (session : Session) (remaining : Nat) :
    ((session.afterEndMessage remaining).1.state = .ended ∧
        (session.afterEndMessage remaining).2.call? = none) ∨
      (session.afterEndMessage remaining).1.state.Live := by
  unfold Session.afterEndMessage
  split
  · exact .inr (.inr (.inr rfl))
  · exact .inl ⟨rfl, rfl⟩

theorem finish_live (session : Session) (remaining : Nat) :
    ((session.finish remaining).1.state = .ended ∧ (session.finish remaining).2.call? = none) ∨
      (session.finish remaining).1.state.Live := by
  unfold Session.finish
  split
  · exact .inr (.inr (.inr rfl))
  · exact afterEndMessage_live session remaining

theorem Ticked.live {remaining anchor : Nat} {queue : Queue} {outcome : TickOutcome} {run : Run}
    (h : Ticked session anchor remaining queue outcome run) :
    (run.state = .ended ∧ (Reply.ticked outcome).call? = none) ∨ run.state.Live := by
  cases h with
  | waited | announced => exact .inr (.inr (.inl rfl))
  | finished => exact finish_live session 0

theorem ne_ready_of_live {s : State} {p : Prop} (h : (s = .ended ∧ p) ∨ s.Live) : s ≠ .ready := by
  rcases h with ⟨rfl, -⟩ | rfl | rfl | rfl <;> nofun

theorem Transition.calls {journal : List Entry} (h : Transition c op answer d)
    (hready : c.state = .ready → Journal.calls journal = []) :
    Journal.calls (Journal.through journal c.state (route d answer)) =
      continued (Journal.calls journal) op answer := by
  cases h with
  | refused =>
    rw [continued_error]
    exact calls_route id
  | overlooked | passed => exact calls_route id
  | launched launches => exact launches.calls
  | configured | reset => exact Journal.calls_through_ready nofun hready
  | ticked way => exact calls_route fun h => absurd h (ne_ready_of_live way.live)
  | stopped => exact calls_route fun h => absurd h (ne_ready_of_live (finish_live _ _))
  | spoken => exact calls_route fun h => absurd h (ne_ready_of_live (afterEndMessage_live _ _))
  | unloaded | misconfigured | silenced | begun | paused | resumed | chimed =>
    exact calls_route nofun

theorem Transition.live (h : Transition c op answer d) :
    asked answer = none ∨ d.state.Live := by
  cases h with
  | launched =>
    refine .inr ?_
    unfold Session.launched
    split
    · exact .inl rfl
    · exact .inr (.inl rfl)
  | ticked way => exact way.live.imp_left (·.2)
  | stopped => exact (finish_live _ _).imp_left (·.2)
  | spoken => exact (afterEndMessage_live _ _).imp_left (·.2)
  | _ => exact .inl rfl

end

end Countdown

-- ---------------------------------------------------------------------------
-- How much of the programme was performed
-- ---------------------------------------------------------------------------

def Announcement.call (a : Announcement) : Call :=
  .say a.message a.rate

namespace Session

def opening (session : Session) : List Call :=
  if session.sayStart then [.say session.startMessage Rate.normal] else []

def closing (session : Session) : List Call :=
  if session.sayEnd then [.say session.endMessage Rate.normal] else []

/-- All that a session has to say if its announcements are broken off after `spoken`. -/
def programme (session : Session) (spoken : List Announcement) : List Call :=
  session.opening ++ spoken.map (·.call) ++ session.closing ++
    if session.endChime then [.chime] else []

def Begins (session : Session) (calls : List Call) : Prop :=
  ∃ spoken, spoken <+: session.announcements ∧ calls <+: session.programme spoken

end Session

def Run.Performed (session : Session) (calls : List Call) : Run → Prop
  | .ready => calls = []
  | .starting => calls = session.opening
  | .running _ queue _ | .paused _ queue =>
    ∃ spoken, spoken ++ queue = session.announcements ∧
      calls = session.opening ++ spoken.map (·.call)
  | .ending _ .speaking =>
    ∃ spoken, spoken <+: session.announcements ∧
      calls = session.opening ++ spoken.map (·.call) ++ session.closing
  | .ending _ .chiming | .ended _ => session.Begins calls

def Countdown.Performed (last : Option Session) (calls : List Call) : Countdown → Prop
  | .unset => match last with
    | none => calls = []
    | some session => session.Begins calls
  | .loaded session run => last = some session ∧ run.Performed session calls

section
variable {session : Session} {last : Option Session} {calls : List Call} {run : Run}
  {spoken : List Announcement} {c d : Countdown} {op : Operation} {answer : Answer}

theorem Session.afterEndMessage_performed {remaining : Nat}
    (hspoken : spoken <+: session.announcements)
    (hcalls : calls = session.opening ++ spoken.map (·.call) ++ session.closing) :
    (session.afterEndMessage remaining).1.Performed session
      (calls ++ (session.afterEndMessage remaining).2.call?.toList) := by
  subst hcalls
  unfold afterEndMessage
  split
  · refine ⟨spoken, hspoken, ?_⟩
    simp [programme, EndStep.call?, *]
  · refine ⟨spoken, hspoken, ?_⟩
    simp [programme, EndStep.call?, *]

theorem Session.finish_performed {remaining : Nat} (hspoken : spoken <+: session.announcements)
    (hcalls : calls = session.opening ++ spoken.map (·.call)) :
    (session.finish remaining).1.Performed session
      (calls ++ (session.finish remaining).2.call?.toList) := by
  unfold finish
  split
  · refine ⟨spoken, hspoken, ?_⟩
    simp [closing, EndStep.call?, *]
  · refine afterEndMessage_performed hspoken ?_
    simp [closing, *]

theorem Session.launched_performed (session : Session) (now : Nat) :
    (session.launched now).Performed session (session.launch now).2.call?.toList := by
  unfold launched launch
  split
  · simp [Run.Performed, opening, StartPlan.call?, *]
  · refine ⟨[], rfl, ?_⟩
    simp [opening, StartPlan.call?, *]

theorem Run.Performed.underWay (h : run.Performed session calls)
    (live : run.state = .running ∨ run.state = .paused) :
    ∃ spoken, spoken <+: session.announcements ∧
      calls = session.opening ++ spoken.map (·.call) := by
  cases run with
  | running | paused =>
    obtain ⟨spoken, hqueue, hcalls⟩ := h
    exact ⟨spoken, ⟨_, hqueue⟩, hcalls⟩
  | _ => simp [Run.state] at live

theorem Session.begins_of_spoken (hspoken : spoken <+: session.announcements)
    (hcalls : calls = session.opening ++ spoken.map (·.call)) : session.Begins calls := by
  refine ⟨spoken, hspoken, ?_⟩
  rw [programme, List.append_assoc, ← hcalls]
  exact List.prefix_append ..

/-- Wherever a run is broken off, it has performed the beginning of a programme. -/
theorem Run.Performed.begins (h : run.Performed session calls) : session.Begins calls := by
  rcases run with _ | _ | _ | _ | ⟨remaining, _ | _⟩ | _
  case ready => exact ⟨[], List.nil_prefix, h ▸ List.nil_prefix⟩
  case starting => exact Session.begins_of_spoken List.nil_prefix (h.trans (List.append_nil _).symm)
  case running =>
    obtain ⟨spoken, hspoken, hcalls⟩ := h.underWay (.inl rfl)
    exact Session.begins_of_spoken hspoken hcalls
  case paused =>
    obtain ⟨spoken, hspoken, hcalls⟩ := h.underWay (.inr rfl)
    exact Session.begins_of_spoken hspoken hcalls
  case ending.speaking =>
    obtain ⟨spoken, hspoken, rfl⟩ := h
    exact ⟨spoken, hspoken, List.prefix_append ..⟩
  case ending.chiming => exact h
  case ended => exact h

theorem Countdown.Performed.kept (hc : c.Performed last calls) :
    c.Performed (c.session?.or last) calls := by
  cases c with
  | unset => exact hc
  | loaded session run => exact ⟨rfl, hc.2⟩

theorem Countdown.Performed.of_ready (hc : c.Performed last calls) (hready : c.state = .ready) :
    calls = [] := by
  rcases c with _ | ⟨session, _ | _ | _ | _ | _ | _⟩ <;> cases hready
  exact hc.2

theorem Countdown.Performed.unloaded (hc : c.Performed last calls) :
    Countdown.unset.Performed last calls := by
  cases c with
  | unset => exact hc
  | loaded session run =>
    obtain ⟨rfl, hrun⟩ := hc
    exact hrun.begins

theorem Countdown.Ticked.performed {remaining anchor : Nat} {queue : Queue} {outcome : TickOutcome}
    (h : Ticked session anchor remaining queue outcome run)
    (hqueue : spoken ++ queue = session.announcements)
    (hcalls : calls = session.opening ++ spoken.map (·.call)) :
    run.Performed session (calls ++ (Reply.ticked outcome).call?.toList) := by
  cases h with
  | waited => exact ⟨spoken, hqueue, (List.append_nil _).trans hcalls⟩
  | @announced _ a rest =>
    refine ⟨spoken ++ [a], by simpa using hqueue, ?_⟩
    simp [hcalls, Reply.call?, Announcement.call]
  | finished => exact Session.finish_performed ⟨queue, hqueue⟩ hcalls

theorem Countdown.Transition.performed (h : Transition c op answer d)
    (hc : c.Performed last calls) :
    d.Performed (d.session?.or last) (continued calls op answer ++ (asked answer).toList) := by
  cases h with
  | refused =>
    rw [continued_error]
    exact (List.append_nil calls).symm ▸ hc.kept
  | overlooked | passed => exact (List.append_nil calls).symm ▸ hc.kept
  | unloaded | misconfigured => exact (List.append_nil calls).symm ▸ hc.unloaded
  | configured | reset => exact ⟨rfl, rfl⟩
  | @launched session run op now launches =>
    have hcalls : continued calls op (.ok (.started (session.launch now).2)) = [] := by
      cases launches with
      | start => exact hc.2
      | restartPaused | restartEnded | autoRestart => rfl
    rw [hcalls]
    exact ⟨rfl, session.launched_performed now⟩
  | begun => exact ⟨rfl, [], rfl, congrArg (· ++ []) hc.2⟩
  | ticked way =>
    obtain ⟨-, spoken, hqueue, hcalls⟩ := hc
    exact ⟨rfl, way.performed hqueue hcalls⟩
  | paused | resumed =>
    obtain ⟨-, spoken, hqueue, hcalls⟩ := hc
    exact ⟨rfl, spoken, hqueue, (List.append_nil _).trans hcalls⟩
  | silenced =>
    obtain ⟨spoken, hspoken, hcalls⟩ := hc.2.begins
    exact ⟨rfl, spoken, hspoken, (List.append_nil calls).symm ▸ hcalls⟩
  | stopped live =>
    obtain ⟨spoken, hspoken, hcalls⟩ := hc.2.underWay live
    exact ⟨rfl, Session.finish_performed hspoken hcalls⟩
  | spoken =>
    obtain ⟨-, spoken, hspoken, hcalls⟩ := hc
    exact ⟨rfl, Session.afterEndMessage_performed hspoken hcalls⟩
  | chimed =>
    obtain ⟨-, spoken, hspoken, hcalls⟩ := hc
    exact ⟨rfl, spoken, hspoken, (List.append_nil calls).symm ▸ hcalls⟩

end

-- ---------------------------------------------------------------------------
-- Every history
-- ---------------------------------------------------------------------------

namespace Timeline

section
variable {t u : Timeline}

theorem perform_silent {state : State} (h : (t.perform (.stop true)).2 = .ok state) :
    ∃ previous, (t.perform (.stop true)).1.journal = .change ⟨previous, .ended⟩ :: t.journal := by
  obtain ⟨gateways, now, c, wait, nextTick, answered, closed, journal⟩ := t
  cases closed with
  | true => cases h
  | false =>
    rw [perform_eq rfl, addressed_eq] at h ⊢
    rcases c with _ | ⟨session, _ | _ | _ | _ | _ | _⟩
    case loaded.running => exact ⟨.running, rfl⟩
    case loaded.paused => exact ⟨.paused, rfl⟩
    all_goals cases h

end

end Timeline

/-- A timeline and the session it was last loaded with. -/
structure Chronicle where
  timeline : Timeline := {}
  session? : Option Session := none

namespace Chronicle

def happen (r : Chronicle) (o : Occurrence) : Chronicle :=
  let t := r.timeline.happen o
  ⟨t, t.countdown.session?.or r.session?⟩

def after (r : Chronicle) (history : List Occurrence) : Chronicle :=
  history.foldl happen r

theorem timeline_after (r : Chronicle) (history : List Occurrence) :
    (r.after history).timeline = r.timeline.after history := by
  induction history generalizing r with
  | nil => rfl
  | cons o rest ih => exact ih (r.happen o)

/-- What every history keeps. A journal without calls tells of no call. -/
structure Faithful (r : Chronicle) : Prop where
  sound : r.timeline.countdown.Sound
  told : Journal.state r.timeline.journal = r.timeline.countdown.state
  lawful : Journal.Lawful r.timeline.journal
  performed : ∃ calls, r.timeline.countdown.Performed r.session? calls ∧
    Journal.calls r.timeline.journal = if r.timeline.gateways.recorded then calls else []

theorem Faithful.start (gateways : Gateways) : Faithful { timeline := { gateways } } :=
  ⟨unset_sound, rfl, trivial, [], rfl, (ite_self _).symm⟩

theorem Faithful.turn {t u : Timeline} {last : Option Session} (h : Faithful ⟨t, last⟩)
    (turn : Timeline.Turn t u) : Faithful ⟨u, u.countdown.session?.or last⟩ := by
  obtain ⟨calls, hperformed, hcalls⟩ := h.performed
  obtain ⟨hgateways, ⟨hcountdown, hjournal⟩ | ⟨op, now, hcountdown, hjournal⟩⟩ := turn.journal
  · refine ⟨hcountdown ▸ h.sound, ?_, hjournal ▸ h.lawful, calls, hcountdown ▸ hperformed.kept, ?_⟩
    · exact hjournal ▸ hcountdown ▸ h.told
    · exact hjournal ▸ hgateways ▸ hcalls
  · have transition := perform_transition t.countdown op
    rw [← hcountdown] at transition
    generalize (t.countdown.perform op).value = answer at hjournal transition
    have htold : Journal.state (Journal.through t.journal t.countdown.state
        (route u.countdown answer)) = u.countdown.state := by
      rw [Journal.state_through h.told, route_last]
    have hready : t.countdown.state = .ready → Journal.calls t.journal = [] := by
      intro hstate
      rw [hcalls, hperformed.of_ready hstate, ite_self]
    refine ⟨transition.sound h.sound, ?_, ?_, _, transition.performed hperformed, ?_⟩
    · rw [hjournal, Journal.state_heard, htold]
    · rw [hjournal]
      exact (h.lawful.through h.told transition.leads).heard (htold ▸ transition.live)
    · rw [hjournal, Journal.calls_heard, transition.calls hready, hcalls, hgateways]
      split
      · rfl
      · rw [continued_nil, List.append_nil]

theorem Faithful.after {r : Chronicle} (h : r.Faithful) (history : List Occurrence) :
    (r.after history).Faithful := by
  induction history generalizing r with
  | nil => exact h
  | cons o rest ih => exact ih (h.turn (r.timeline.happen_turn o))

theorem Faithful.begins {r : Chronicle} (h : r.Faithful) :
    match r.session? with
    | none => Journal.calls r.timeline.journal = []
    | some session => session.Begins (Journal.calls r.timeline.journal) := by
  obtain ⟨calls, hperformed, hcalls⟩ := h.performed
  have hunset := hperformed.unloaded
  rw [hcalls]
  cases r.timeline.gateways.recorded with
  | true => exact hunset
  | false =>
    split
    · rfl
    · exact ⟨[], List.nil_prefix, List.nil_prefix⟩

/-- In every history the calls since the countdown last became ready are the
beginning of the programme of the session that is loaded, or was loaded last;
each call is made while a run is under way, so never in an empty, ready or
paused countdown; and after a silent stop there is none before the countdown is
ready again. -/
theorem calls_follow_programme (gateways : Gateways) (history : List Occurrence) :
    let r := ({ timeline := { gateways } } : Chronicle).after history
    let t := r.timeline
    t = ({ gateways } : Timeline).after history ∧
      Journal.state t.journal = t.countdown.state ∧
      (match r.session? with
        | none => Journal.calls t.journal = []
        | some session => ∃ spoken, spoken <+: session.announcements ∧
          Journal.calls t.journal <+: session.programme spoken) ∧
      (∀ entry before, entry :: before <:+ t.journal → entry.call?.isSome →
        Journal.state before = .starting ∨ Journal.state before = .running ∨
          Journal.state before = .ending) ∧
      (∀ state, (t.perform (.stop true)).2 = .ok state → ∀ rest,
        ∃ later : List Entry,
          ((t.perform (.stop true)).1.after rest).journal = later.reverse ++ t.journal ∧
          ∀ entry ∈ later.takeWhile (!·.entersReady), entry.call? = none) := by
  intro r t
  have h : r.Faithful := (Faithful.start gateways).after history
  refine ⟨timeline_after .., h.told, h.begins, fun entry before => h.lawful.live,
    fun state hstop rest => ?_⟩
  obtain ⟨previous, hjournal⟩ := Timeline.perform_silent hstop
  obtain ⟨new, hnew⟩ := (t.perform (.stop true)).1.journal_after rest
  have hlawful : Journal.Lawful (new ++ .change ⟨previous, .ended⟩ :: t.journal) := by
    have hafter := (h.after (.command (.stop true) :: rest)).lawful
    rw [timeline_after] at hafter
    rwa [← hjournal, hnew]
  refine ⟨.change ⟨previous, .ended⟩ :: new.reverse, ?_, List.forall_mem_cons.mpr ⟨rfl, ?_⟩⟩
  · rw [← hnew, hjournal]
    simp
  · rw [← new.reverse_reverse] at hlawful
    exact hlawful.silent (.inr rfl)

end Chronicle

end SpokenCountdown
