import SpokenCountdown.Proofs.Countdown.Transition

/-!
# Steady ticks lose no announcement

From one tick of a run to the next the remaining time drops by at most `g`, and
no announcement is nearer than `g` to the end or to its neighbour. Then every
announcement has been handed out once the run finishes, however many are due at
one moment. A tick while paused counts no time and hands nothing out, so it is
not a tick of the run; counted as one it would hide the drop before a pause.
-/

namespace SpokenCountdown.Countdown

inductive Move where
  | tick (now : Nat)
  | pause (now : Nat)
  | resume (now : Nat)
  deriving DecidableEq, Repr

def Move.operation : Move → Operation
  | .tick now => .tick now
  | .pause now => .pause now
  | .resume now => .resume now

structure Delivery where
  announcement : Announcement
  remaining : Nat
  deriving DecidableEq, Repr

def move (c : Countdown) (m : Move) : Countdown :=
  (c.perform m.operation).countdown

def delivered (c : Countdown) : Move → List Delivery
  | .tick now =>
    match (c.tick now).value with
    | .announce a => [⟨a, (c.tick now).countdown.remaining⟩]
    | _ => []
  | _ => []

def deliveries (c : Countdown) : List Move → List Delivery
  | [] => []
  | m :: rest => c.delivered m ++ (c.move m).deliveries rest

def mark (counts : State → Bool) (c : Countdown) : Move → List Nat
  | .tick now => if counts c.state then [(c.tick now).countdown.remaining] else []
  | _ => []

def marks (counts : State → Bool) (c : Countdown) : List Move → List Nat
  | [] => []
  | m :: rest => c.mark counts m ++ (c.move m).marks counts rest

/-- From each tick that counts to the next, and from the total to the first, the
remaining time drops by at most `g`. -/
def Steady (counts : State → Bool) (g : Nat) (c : Countdown) (moves : List Move) : Prop :=
  (c.total :: c.marks counts moves).IsChain fun last next => last ≤ next + g

instance (counts : State → Bool) (g : Nat) (c : Countdown) (moves : List Move) :
    Decidable (Steady counts g c moves) :=
  inferInstanceAs (Decidable (List.IsChain _ _))

def isRunning (state : State) : Bool :=
  state = .running

-- ---------------------------------------------------------------------------
-- One move
-- ---------------------------------------------------------------------------

inductive UnderWay (session : Session) (last : Nat) (queue : Queue) : Countdown → Prop where
  | running {remaining anchor : Nat} (le : remaining ≤ last) :
      UnderWay session last queue (.loaded session (.running remaining queue anchor))
  | paused {remaining : Nat} (le : remaining ≤ last) :
      UnderWay session last queue (.loaded session (.paused remaining queue))

/-- The ways a move can go, with the mark it leaves and what it hands out. -/
inductive Moved (session : Session) (last : Nat) :
    Queue → List Nat → List Delivery → Countdown → Prop where
  | quiet {queue : Queue} {d : Countdown} (underWay : UnderWay session last queue d) :
      Moved session last queue [] [] d
  | waited {queue : Queue} {remaining : Nat} {d : Countdown}
      (underWay : UnderWay session remaining queue d)
      (notDue : ∀ a ∈ queue.head?, a.isDue remaining session.earlyFire = false) :
      Moved session last queue [remaining] [] d
  | announced {a : Announcement} {rest : Queue} {remaining : Nat} {d : Countdown}
      (underWay : UnderWay session remaining rest d)
      (due : a.isDue remaining session.earlyFire = true) :
      Moved session last (a :: rest) [remaining] [⟨a, remaining⟩] d
  | finished {queue : Queue} {d : Countdown} (ended : d.state = .ending ∨ d.state = .ended) :
      Moved session last queue [0] [] d

section
variable {session : Session} {last g now remaining anchor : Nat} {queue : Queue} {c : Countdown}
  {step : EndStep}

theorem UnderWay.moved (h : UnderWay session last queue c) (m : Move) :
    Moved session last queue (c.mark isRunning m) (c.delivered m) (c.move m) := by
  cases h with
  | @running remaining anchor le =>
    cases m with
    | tick now =>
      obtain ⟨outcome, run, htick, way⟩ := tick_running session remaining queue anchor now
      generalize (elapse remaining anchor now).1 = left at way
      simp only [mark, delivered, move, Move.operation, perform, Step.answering, htick]
      cases way with
      | waited positive notDue => exact .waited (.running (Nat.le_refl _)) notDue
      | announced positive due => exact .announced (.running (Nat.le_refl _)) due
      | finished =>
        have hmark : [(session.finish 0).1.remaining session.total] = [0] := by
          rw [session.finish_remaining]
        exact hmark ▸ .finished (session.finish_state 0)
    | pause now =>
      simp only [mark, delivered, move, Move.operation, perform, Step.answering, pause]
      split
      · exact .quiet (.paused (Nat.le_trans (elapse_le ..) le))
      · exact .quiet (.running le)
    | resume now => exact .quiet (.running le)
  | paused le =>
    cases m with
    | tick now => exact .quiet (.paused le)
    | pause now => exact .quiet (.paused le)
    | resume now => exact .quiet (.running le)

theorem UnderWay.mark_finished (h : UnderWay session last queue c)
    (ht : (c.tick now).value = .finished step) : c.mark isRunning (.tick now) = [0] := by
  cases h with
  | @running remaining anchor =>
    obtain ⟨outcome, run, htick, way⟩ := tick_running session remaining queue anchor now
    have hmark : (Countdown.loaded session (.running remaining queue anchor)).mark isRunning
        (.tick now) = [run.remaining session.total] := by
      simp only [mark, htick]
      rfl
    obtain rfl : outcome = .finished step := by simpa [htick, visit] using ht
    generalize (elapse remaining anchor now).1 = left at way
    cases way with
    | finished => rw [hmark, session.finish_remaining]
  | paused => cases ht

-- ---------------------------------------------------------------------------
-- The whole run
-- ---------------------------------------------------------------------------

theorem move_over (h : c.state = .ending ∨ c.state = .ended) (m : Move) : c.move m = c := by
  cases c with
  | unset => simp [state] at h
  | loaded session run =>
    cases run with
    | ending | ended => cases m <;> rfl
    | _ => simp [state, Run.state] at h

theorem tick_over (h : c.state = .ending ∨ c.state = .ended) (now : Nat) :
    (c.tick now).value = .idle := by
  cases c with
  | unset => rfl
  | loaded session run =>
    cases run with
    | running => simp [state, Run.state] at h
    | _ => rfl

theorem after_over (h : c.state = .ending ∨ c.state = .ended) (moves : List Move) :
    c.after (moves.map (·.operation)) = c := by
  induction moves with
  | nil => rfl
  | cons m rest ih =>
    have hmove : (c.perform m.operation).countdown = c := move_over h m
    rw [List.map_cons, after_cons, hmove, ih]

/-- The head of the queue is below the last mark at every point: the drop to the
next tick then takes the run past no offset without handing its announcement out. -/
theorem UnderWay.deliveries_eq {moves more : List Move} (h : UnderWay session last queue c)
    (within : ∀ a ∈ queue, g ≤ a.offset)
    (fits : ∀ a ∈ queue, a.offset + session.earlyFire < Text.word64)
    (spaced : queue.IsChain fun a b => b.offset + g ≤ a.offset)
    (ahead : ∀ a ∈ queue.head?, a.offset < last)
    (steady : (last :: c.marks isRunning (moves ++ .tick now :: more)).IsChain
      fun last next => last ≤ next + g)
    (finished : ((c.after (moves.map (·.operation))).tick now).value = .finished step) :
    (c.deliveries moves).map (·.announcement) = queue ∧
      ∀ d ∈ c.deliveries moves, d.announcement.offset < d.remaining + g ∧
        d.remaining ≤ d.announcement.offset + session.earlyFire := by
  induction moves generalizing c last queue with
  | nil =>
    rw [List.nil_append, marks, h.mark_finished finished] at steady
    have hlast : last ≤ 0 + g := (List.isChain_cons_cons.mp steady).1
    cases queue with
    | nil => exact ⟨rfl, nofun⟩
    | cons a rest =>
      have hg : g ≤ a.offset := within a List.mem_cons_self
      have ha : a.offset < last := ahead a rfl
      omega
  | cons m rest ih =>
    have hmoved := h.moved m
    simp only [List.cons_append, marks, deliveries] at steady ⊢
    rw [List.map_cons, after_cons] at finished
    generalize c.mark isRunning m = marked, c.delivered m = handed at hmoved steady ⊢
    cases hmoved with
    | quiet underWay => exact ih underWay within fits spaced ahead steady finished
    | waited underWay notDue =>
      refine ih underWay within fits spaced (fun a ha => ?_)
        (List.isChain_cons_cons.mp steady).2 finished
      have hlater := Announcement.lt_of_not_isDue (fits a (List.mem_of_mem_head? ha)) (notDue a ha)
      exact Nat.lt_of_le_of_lt (Nat.le_add_right ..) hlater
    | @announced a queue remaining _ underWay due =>
      obtain ⟨hdrop, steady⟩ := List.isChain_cons_cons.mp steady
      have ha : a.offset < last := ahead a rfl
      obtain ⟨hgap, spaced⟩ := List.isChain_cons.mp spaced
      have hahead : ∀ b ∈ queue.head?, b.offset < remaining := by
        intro b hb
        have hb : b.offset + g ≤ a.offset := hgap b hb
        omega
      obtain ⟨hlist, htimely⟩ := ih underWay (fun b hb => within b (List.mem_cons_of_mem _ hb))
        (fun b hb => fits b (List.mem_cons_of_mem _ hb)) spaced hahead steady finished
      refine ⟨congrArg (a :: ·) hlist, List.forall_mem_cons.mpr ⟨⟨?_, ?_⟩, htimely⟩⟩
      · exact Nat.lt_of_lt_of_le ha hdrop
      · exact Announcement.le_of_isDue due
    | finished ended =>
      have hstay : (c.perform m.operation).countdown.after (rest.map (·.operation)) = c.move m :=
        after_over ended rest
      have hidle : ((c.move m).tick now).value = .idle := tick_over ended now
      rw [hstay, hidle] at finished
      exact nomatch finished

/-- Every early-fire margin will do that makes a word with each offset, and every way to
come to run with a full queue. -/
theorem steady_ticks_deliver {history : List Operation} {moves more : List Move}
    (entered : Countdown.unset.after history =
      .loaded session (.running remaining session.announcements anchor))
    (within : ∀ a ∈ session.announcements, g ≤ a.offset)
    (fits : ∀ a ∈ session.announcements, a.offset + session.earlyFire < Text.word64)
    (spaced : session.announcements.IsChain fun a b => b.offset + g ≤ a.offset)
    (steady : (Countdown.unset.after history).Steady isRunning g (moves ++ .tick now :: more))
    (finished : ((Countdown.unset.after (history ++ moves.map (·.operation))).tick now).value =
      .finished step) :
    ((Countdown.unset.after history).deliveries moves).map (·.announcement) =
        session.announcements ∧
      ∀ d ∈ (Countdown.unset.after history).deliveries moves,
        d.announcement.offset < d.remaining + g ∧
          d.remaining ≤ d.announcement.offset + session.earlyFire := by
  have hsound : (Countdown.unset.after history).Sound := unset_sound.after history
  rw [after_append] at finished
  rw [entered] at hsound steady finished ⊢
  refine UnderWay.deliveries_eq (.running hsound.2.1) within fits spaced (fun a ha => ?_)
    steady finished
  exact (hsound.1.schedule.inRange a (List.mem_of_mem_head? ha)).2

theorem entered_of_session {settings : Settings} (h : settings.session = .ok session)
    (hquiet : session.sayStart = false) (start : Nat) :
    Countdown.unset.after [.configure settings, .start start] =
      .loaded session (session.startedAt start) := by
  have hready : (Countdown.unset.perform (.configure settings)).countdown =
      .loaded session .ready := by
    simp only [perform, configure, state, h]
    rfl
  rw [after_cons, hready, after_cons, after_nil]
  simp only [perform, Countdown.start, Session.launch, hquiet]
  rfl

end

-- ---------------------------------------------------------------------------
-- Ten seconds with two announcements
-- ---------------------------------------------------------------------------

def tenSeconds : Settings where
  duration := .number 10
  say := ""
  sayItems := [⟨5000, "Five", some Rate.normal⟩, ⟨3000, "Three", some Rate.normal⟩]
  sayEnd := false
  endChime := false
  earlyFire := 0

def tenSecondsSession : Session where
  total := 10000
  announcements := [⟨5000, "Five", Rate.normal⟩, ⟨3000, "Three", Rate.normal⟩]
  priority := .fraction
  sayStart := false
  sayEnd := false
  endChime := false
  startMessage := "Ready. Set. Go!"
  endMessage := "Time's up!"
  autoRestart := none
  allowPause := true
  earlyFire := 0
  tick := 50
  speechTimeout := 15000

set_option maxRecDepth 10000 in
theorem tenSeconds_session : tenSeconds.session = .ok tenSecondsSession := by
  have h : tenSeconds.session = .ok _ := rfl
  rw [h, Reconciliation.reconcile_of_descending (by decide +kernel)]
  decide +kernel

theorem tenSeconds_entered :
    Countdown.unset.after [.configure tenSeconds, .start 0] =
      .loaded tenSecondsSession (tenSecondsSession.startedAt 0) :=
  entered_of_session tenSeconds_session rfl 0

/-- The pause flushes one second, and the tick that comes in it hands nothing out. -/
theorem steady_ticks_deliver_both :
    let c := Countdown.unset.after [.configure tenSeconds, .start 0]
    let moves : List Move := [.tick 2000000, .tick 4000000, .tick 6000000, .pause 7000000,
      .tick 8000000, .resume 20000000, .tick 21000000, .tick 22000000]
    c.Steady isRunning 2000 (moves ++ [.tick 23000000]) ∧
      (c.deliveries moves).map (·.announcement) = tenSecondsSession.announcements ∧
      ∀ d ∈ c.deliveries moves, d.announcement.offset < d.remaining + 2000 := by
  intro c moves
  have steady : c.Steady isRunning 2000 (moves ++ [.tick 23000000]) := by
    have hc : c = _ := tenSeconds_entered
    rw [hc]
    decide +kernel
  have finished : ((Countdown.unset.after ([.configure tenSeconds, .start 0] ++
      moves.map (·.operation))).tick 23000000).value = .finished (.done none) := by
    rw [after_append, tenSeconds_entered]
    decide +kernel
  obtain ⟨hlist, htimely⟩ := steady_ticks_deliver (g := 2000) tenSeconds_entered
    (by decide) (by decide) (by decide) steady finished
  exact ⟨steady, hlist, fun d hd => (htimely d hd).1⟩

/-- With ticks while paused counted as well, announcements can be lost: a pause
flushes two seconds, the tick in it counts them, and the run goes on as if a
tick had seen that time. -/
theorem counted_pauses_lose :
    ¬ ∀ (history : List Operation) (session : Session) (remaining anchor now g : Nat)
        (moves more : List Move) (step : EndStep),
      Countdown.unset.after history =
        .loaded session (.running remaining session.announcements anchor) →
      (∀ a ∈ session.announcements, g ≤ a.offset) →
      (∀ a ∈ session.announcements, a.offset + session.earlyFire < Text.word64) →
      (session.announcements.IsChain fun a b => b.offset + g ≤ a.offset) →
      (Countdown.unset.after history).Steady (fun _ => true) g (moves ++ .tick now :: more) →
      ((Countdown.unset.after (history ++ moves.map (·.operation))).tick now).value =
        .finished step →
      ((Countdown.unset.after history).deliveries moves).map (·.announcement) =
        session.announcements := by
  intro h
  have hall := h [.configure tenSeconds, .start 0] tenSecondsSession 10000 0 10000000 2000
    [.tick 2000000, .tick 4000000, .pause 6000000, .tick 6000000, .resume 6000000, .tick 8000000]
    [] (.done none) tenSeconds_entered (by decide) (by decide) (by decide)
  rw [after_append, tenSeconds_entered] at hall
  exact absurd (hall (by decide +kernel) (by decide +kernel)) (by decide +kernel)

end SpokenCountdown.Countdown
