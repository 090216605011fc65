import Mathlib.Algebra.Order.Floor.Div
import SpokenCountdown.Proofs.Countdown.Pacing
import SpokenCountdown.Proofs.Timeline.Unrolling

/-!
# The forecast of a run

When a session is started and nothing more is asked of it, all that will be said
and every change of state can be told in advance, from the time of the start and
how long its messages take. Ticks come at multiples of the tick length behind the
begin of the run; an announcement is spoken at the first of them that finds it
due and has none before it to speak, unless the time is over by then.
-/

namespace SpokenCountdown

open Countdown

namespace Session

section
variable (session : Session) (gateways : Gateways)

def beginsAt (time : Nat) : Nat :=
  if session.sayStart then
    time + gateways.patience session.speechTimeout time session.startMessage
  else time

def finishesAt (time : Nat) : Nat :=
  session.beginsAt gateways time + session.tick * (session.total ⌈/⌉ session.tick)

def chimesAt (time : Nat) : Nat :=
  let finish := session.finishesAt gateways time
  if session.sayEnd then
    finish + gateways.patience session.speechTimeout finish session.endMessage
  else finish

def endsAt (time : Nat) : Nat :=
  session.chimesAt gateways time + if session.endChime then gateways.chime else 0

/-- The ticks for announcements of which none comes before tick `n + 1`. -/
def ticksFor (n : Nat) : List Announcement → List (Nat × Announcement)
  | [] => []
  | a :: rest =>
    let next := max (n + 1) ((session.total - (a.offset + session.earlyFire)) ⌈/⌉ session.tick)
    (next, a) :: ticksFor next rest

/-- What is spoken of `queue` in a run that began at `start`, after tick `n`. -/
def spoken (start n : Nat) (queue : Queue) : List (Nat × Entry) :=
  ((session.ticksFor n queue).filter fun (n, _) => session.tick * n < session.total).map
    fun (n, a) => (start + session.tick * n, .say (start + session.tick * n) a.message a.rate)

def ending (time : Nat) : List (Nat × Entry) :=
  let finish := session.finishesAt gateways time
  let chime := session.chimesAt gateways time
  if session.sayEnd || session.endChime then
    [(finish, .change ⟨.running, .ending⟩)] ++
      (if session.sayEnd then [(finish, .say finish session.endMessage Rate.normal)] else []) ++
      (if session.endChime then [(chime, .chime chime)] else []) ++
      [(session.endsAt gateways time, .change ⟨.ending, .ended⟩)]
  else [(finish, .change ⟨.running, .ended⟩)]

/-- One run of a session that is started at `time`, from ready to its end. -/
def round (time : Nat) : List (Nat × Entry) :=
  [(time, .change ⟨.ready, .starting⟩)] ++
    (if session.sayStart then [(time, .say time session.startMessage Rate.normal)] else []) ++
    [(session.beginsAt gateways time, .change ⟨.starting, .running⟩)] ++
    session.spoken (session.beginsAt gateways time) 0 session.announcements ++
    session.ending gateways time

/-- One run and the next ones, at most `more`, that follow by themselves. -/
def forecast : (more time : Nat) → List (Nat × Entry)
  | 0, time => session.round gateways time
  | more + 1, time =>
    session.round gateways time ++
      match session.autoRestart with
      | none => []
      | some delay =>
        let again := session.endsAt gateways time + delay
        (again, .change ⟨.ended, .ready⟩) :: forecast more again

end

end Session

namespace Timeline

section
variable {session : Session} {gateways : Gateways} {t : Timeline} {time : Nat}

-- ---------------------------------------------------------------------------
-- Ticks
-- ---------------------------------------------------------------------------

theorem elapse_tick (start k remaining period : Nat) :
    elapse remaining ((start + period * k) * 1000) ((start + period * k + period) * 1000) =
      (remaining - period, (start + period * (k + 1)) * 1000) := by
  have hspan : ((start + period * k + period) * 1000 - (start + period * k) * 1000) / 1000 =
      period := by omega
  have hanchor :
      (start + period * k) * 1000 + period * 1000 = (start + period * (k + 1)) * 1000 := by
    rw [Nat.mul_succ period k]
    omega
  simp only [elapse, hspan, hanchor]

theorem perform_tick {c d : Countdown} {now : Nat} {outcome : TickOutcome}
    (h : c.tick now = c.visit [d] outcome) :
    (c.perform (.tick now)).value = .ok (.ticked outcome) ∧
      (c.perform (.tick now)).countdown = d := by
  simp only [Countdown.perform, h]
  exact ⟨rfl, rfl⟩

theorem lt_of_mem_ticksFor {queue : List Announcement} {n : Nat} {x : Nat × Announcement}
    (h : x ∈ session.ticksFor n queue) : n < x.1 := by
  induction queue generalizing n with
  | nil => cases h
  | cons a rest ih =>
    rcases List.mem_cons.mp h with rfl | h
    · exact Nat.le_max_left ..
    · exact Nat.lt_of_succ_le ((Nat.le_max_left ..).trans (ih h).le)

theorem spoken_later {a : Announcement} {rest : Queue} {start k : Nat} (ticking : 0 < session.tick)
    (hnot : a.offset + session.earlyFire < session.total - session.tick * (k + 1)) :
    session.spoken start k (a :: rest) = session.spoken start (k + 1) (a :: rest) := by
  have hlate : k + 1 < (session.total - (a.offset + session.earlyFire)) ⌈/⌉ session.tick := by
    rw [lt_iff_lt_of_le_iff_le (ceilDiv_le_iff_le_mul ticking)]
    omega
  simp only [Session.spoken, Session.ticksFor]
  rw [Nat.max_eq_right hlate.le, Nat.max_eq_right hlate]

theorem spoken_now {a : Announcement} {rest : Queue} {start k : Nat} (ticking : 0 < session.tick)
    (positive : 0 < session.total - session.tick * (k + 1))
    (hdue : session.total - session.tick * (k + 1) ≤ a.offset + session.earlyFire) :
    session.spoken start k (a :: rest) =
      (start + session.tick * (k + 1),
        .say (start + session.tick * (k + 1)) a.message a.rate) ::
          session.spoken start (k + 1) rest := by
  have hready : (session.total - (a.offset + session.earlyFire)) ⌈/⌉ session.tick ≤ k + 1 := by
    rw [ceilDiv_le_iff_le_mul ticking]
    omega
  have htime : session.tick * (k + 1) < session.total := by omega
  simp only [Session.spoken, Session.ticksFor]
  rw [Nat.max_eq_left hready, List.filter_cons_of_pos (by simpa using htime)]
  rfl

theorem spoken_over {queue : Queue} {start k : Nat}
    (hover : session.total ≤ session.tick * (k + 1)) : session.spoken start k queue = [] := by
  refine List.map_eq_nil_iff.mpr (List.filter_eq_nil_iff.mpr fun x hx => ?_)
  have hlater : session.tick * (k + 1) ≤ session.tick * x.1 :=
    Nat.mul_le_mul_left _ (lt_of_mem_ticksFor hx)
  simpa using hover.trans hlater

-- ---------------------------------------------------------------------------
-- The end
-- ---------------------------------------------------------------------------

theorem ending_of_message {launch : Nat} (hend : session.sayEnd = true) :
    session.ending gateways launch =
      (State.running.traces (.loaded session (.ending 0 .speaking))
          (.ticked (.finished (.speak session.endMessage)))
          (session.finishesAt gateways launch)).map (session.finishesAt gateways launch, ·) ++
        ((State.ending.traces (.loaded session (session.afterEndMessage 0).1)
            (.advanced (some (session.afterEndMessage 0).2))
            (session.chimesAt gateways launch)).map (session.chimesAt gateways launch, ·) ++
          if session.endChime then
            [(session.endsAt gateways launch, .change ⟨.ending, .ended⟩)] else []) := by
  unfold Session.ending Session.afterEndMessage Session.endsAt
  rw [hend]
  cases session.endChime <;> rfl

theorem ending_of_silence {launch : Nat} (hend : ¬ session.sayEnd = true) :
    session.ending gateways launch =
      (State.running.traces (.loaded session (session.afterEndMessage 0).1)
          (.ticked (.finished (session.afterEndMessage 0).2))
          (session.finishesAt gateways launch)).map (session.finishesAt gateways launch, ·) ++
        if session.endChime then
          [(session.endsAt gateways launch, .change ⟨.ending, .ended⟩)] else [] := by
  have hchimes : session.chimesAt gateways launch = session.finishesAt gateways launch :=
    if_neg hend
  unfold Session.ending Session.afterEndMessage
  rw [eq_false_of_ne_true hend, hchimes]
  cases session.endChime <;> rfl

theorem lt_endsAt (gateways : Gateways) (hticking : 0 < session.tick)
    (hpositive : 0 < session.total) (time : Nat) : time < session.endsAt gateways time := by
  have hbegins : time ≤ session.beginsAt gateways time := by
    unfold Session.beginsAt
    split <;> omega
  have hfinishes : session.beginsAt gateways time < session.finishesAt gateways time := by
    have hticks : 0 < session.total ⌈/⌉ session.tick := by
      rwa [lt_iff_lt_of_le_iff_le (ceilDiv_le_iff_le_mul hticking)]
    exact Nat.lt_add_of_pos_right (Nat.mul_pos hticking hticks)
  have hchimes : session.finishesAt gateways time ≤ session.chimesAt gateways time := by
    unfold Session.chimesAt
    split
    · exact Nat.le_add_right ..
    · exact Nat.le_refl _
  have hends : session.chimesAt gateways time ≤ session.endsAt gateways time :=
    Nat.le_add_right ..
  omega

theorem traces_relaunch (session : Session) (now time : Nat) :
    State.ended.traces (.loaded session (session.launched now))
        (.started (session.launch now).2) time =
      .change ⟨.ended, .ready⟩ :: State.ready.traces (.loaded session (session.launched now))
        (.started (session.launch now).2) time := by
  unfold Session.launch Session.launched
  split <;> rfl

-- ---------------------------------------------------------------------------
-- The phases of a run
-- ---------------------------------------------------------------------------

section
variable (recorded : gateways.recorded = true)
include recorded

theorem Shows.begin {begins : Nat} (later : time ≤ begins)
    (h : t.Shows gateways time (.loaded session .starting) (some (.startMessage, begins))) :
    ∃ u, Unrolls t [(begins, .change ⟨.starting, .running⟩)] u ∧
      u.Shows gateways begins (.loaded session (session.startedAt (begins * 1000))) none :=
  h.next recorded h.upcoming_waitOver later rfl rfl

theorem Shows.tick {start k : Nat} {queue : Queue}
    (h : t.Shows gateways (start + session.tick * k)
      (.loaded session (.running (session.total - session.tick * k) queue
        ((start + session.tick * k) * 1000))) none) :
    let time := start + session.tick * (k + 1)
    ∃ outcome run u,
      Ticked session (time * 1000) (session.total - session.tick * (k + 1)) queue outcome run ∧
      Unrolls t
        ((State.running.traces (.loaded session run) (.ticked outcome) time).map (time, ·)) u ∧
      u.Shows gateways time (.loaded session run)
        ((Countdown.loaded session run).due gateways time (.ticked outcome)) := by
  intro time
  have htime : start + session.tick * k + session.tick = time := by
    rw [Nat.add_assoc, ← Nat.mul_succ]
  have upcoming := h.upcoming_tick
  rw [htime] at upcoming
  obtain ⟨outcome, run, htick, way⟩ := tick_running session (session.total - session.tick * k)
    queue ((start + session.tick * k) * 1000) (time * 1000)
  rw [← htime, elapse_tick, Nat.sub_sub, ← Nat.mul_succ] at way
  obtain ⟨hreply, hd⟩ := perform_tick htick
  obtain ⟨u, hu, hshows⟩ := h.next recorded upcoming (by omega) hreply hd
  exact ⟨outcome, run, u, way, hu, hshows⟩

theorem Shows.ticks {start k n : Nat} {queue : Queue}
    (fits : ∀ a ∈ queue, a.offset + session.earlyFire < Text.word64)
    (hn : session.total ⌈/⌉ session.tick = k + 1 + n)
    (h : t.Shows gateways (start + session.tick * k)
      (.loaded session (.running (session.total - session.tick * k) queue
        ((start + session.tick * k) * 1000))) none) :
    let finish := start + session.tick * (session.total ⌈/⌉ session.tick)
    let last := session.finish 0
    ∃ u, Unrolls t (session.spoken start k queue ++
        (State.running.traces (.loaded session last.1) (.ticked (.finished last.2)) finish).map
          (finish, ·)) u ∧
      u.Shows gateways finish (.loaded session last.1)
        ((Countdown.loaded session last.1).dueAtEnd gateways finish last.2) := by
  intro finish last
  have hticking := h.session_sound.2
  -- `n` ticks are left behind tick `k + 1`; only the last of them finds nothing left
  induction n generalizing t k queue with
  | zero =>
    obtain ⟨outcome, run, u, way, hu, hshows⟩ := h.tick recorded
    have hover : session.total ≤ session.tick * (k + 1) := by
      rw [← ceilDiv_le_iff_le_mul hticking]
      omega
    have hfinish : start + session.tick * (k + 1) = finish := by rw [← Nat.add_zero (k + 1), ← hn]
    rw [Nat.sub_eq_zero_of_le hover] at way
    rw [hfinish] at hu hshows
    cases way with
    | waited positive | announced positive => cases positive
    | finished =>
      rw [spoken_over hover]
      exact ⟨u, hu, hshows⟩
  | succ n ih =>
    obtain ⟨outcome, run, u, way, hu, hshows⟩ := h.tick recorded
    have hbefore : session.tick * (k + 1) < session.total := by
      rw [← lt_iff_lt_of_le_iff_le (ceilDiv_le_iff_le_mul hticking)]
      omega
    have hpositive : 0 < session.total - session.tick * (k + 1) := by omega
    generalize hleft : session.total - session.tick * (k + 1) = left at way
    cases way with
    | finished => omega
    | waited positive notDue =>
      subst hleft
      obtain ⟨v, hv, hlast⟩ := ih fits (by omega) hshows
      refine ⟨v, ?_, hlast⟩
      -- a tick that finds nothing due leaves nothing, and the forecast looks on behind it
      cases queue with
      | nil => exact hu.trans hv
      | cons a rest =>
        have hlater := Announcement.lt_of_not_isDue (fits a List.mem_cons_self) (notDue a rfl)
        rw [spoken_later hticking hlater]
        exact hu.trans hv
    | @announced _ a rest positive due =>
      subst hleft
      obtain ⟨v, hv, hlast⟩ := ih (fun b hb => fits b (List.mem_cons_of_mem a hb)) (by omega) hshows
      refine ⟨v, ?_, hlast⟩
      rw [spoken_now hticking positive (Announcement.le_of_isDue due)]
      exact hu.trans hv

theorem Shows.afterEndMessage
    (h : t.Shows gateways time (.loaded session (session.afterEndMessage 0).1)
      ((Countdown.loaded session (session.afterEndMessage 0).1).dueAtEnd gateways time
        (session.afterEndMessage 0).2)) :
    let ends := time + if session.endChime then gateways.chime else 0
    ∃ u, Unrolls t (if session.endChime then [(ends, .change ⟨.ending, .ended⟩)] else []) u ∧
      u.Shows gateways ends (.loaded session (.ended 0))
        (session.autoRestart.map fun delay => (.autoRestart, ends + delay)) := by
  intro ends
  simp only [ends]
  unfold Session.afterEndMessage at h
  split at h
  · rename_i hchime
    rw [if_pos hchime, if_pos hchime]
    exact h.next recorded h.upcoming_waitOver (Nat.le_add_right ..) rfl rfl
  · rename_i hchime
    rw [if_neg hchime, if_neg hchime]
    exact ⟨t, .stay, h⟩

theorem Shows.endMessage {ends : Nat} (later : time ≤ ends)
    (h : t.Shows gateways time (.loaded session (.ending 0 .speaking)) (some (.endMessage, ends))) :
    let next := session.afterEndMessage 0
    let traces := State.ending.traces (.loaded session next.1) (.advanced (some next.2)) ends
    ∃ u, Unrolls t (traces.map (ends, ·)) u ∧
      u.Shows gateways ends (.loaded session next.1)
        ((Countdown.loaded session next.1).dueAtEnd gateways ends next.2) :=
  h.next recorded h.upcoming_waitOver later rfl rfl

theorem Shows.ending {launch : Nat} (htime : session.finishesAt gateways launch = time)
    (h : t.Shows gateways time (.loaded session (session.finish 0).1)
      ((Countdown.loaded session (session.finish 0).1).dueAtEnd gateways time
        (session.finish 0).2)) :
    let last := session.finish 0
    ∃ rest u, session.ending gateways launch =
        (State.running.traces (.loaded session last.1) (.ticked (.finished last.2)) time).map
          (time, ·) ++ rest ∧
      Unrolls t rest u ∧
      u.Shows gateways (session.endsAt gateways launch) (.loaded session (.ended 0))
        (session.autoRestart.map fun delay =>
          (.autoRestart, session.endsAt gateways launch + delay)) := by
  intro last
  subst htime
  by_cases hend : session.sayEnd
  · have hlast : last = (.ending 0 .speaking, .speak session.endMessage) := if_pos hend
    have hlater : session.finishesAt gateways launch ≤ session.chimesAt gateways launch := by
      rw [Session.chimesAt, if_pos hend]
      exact Nat.le_add_right ..
    have hspeaks : t.Shows gateways (session.finishesAt gateways launch)
        (.loaded session (.ending 0 .speaking))
        (some (.endMessage, session.chimesAt gateways launch)) := by
      rw [Session.chimesAt, if_pos hend]
      rwa [show session.finish 0 = _ from hlast] at h
    obtain ⟨u, hu, hspoken⟩ := hspeaks.endMessage recorded hlater
    obtain ⟨v, hv, hshows⟩ := hspoken.afterEndMessage recorded
    refine ⟨_, v, ?_, hu.trans hv, hshows⟩
    rw [hlast]
    exact ending_of_message hend
  · have hlast : last = session.afterEndMessage 0 := if_neg hend
    have hchimes : session.chimesAt gateways launch = session.finishesAt gateways launch :=
      if_neg hend
    rw [show session.finish 0 = _ from hlast, ← hchimes] at h
    obtain ⟨u, hu, hshows⟩ := h.afterEndMessage recorded
    refine ⟨_, u, ?_, hu, hshows⟩
    rw [hlast]
    exact ending_of_silence hend

theorem Shows.running {launch : Nat}
    (fits : ∀ a ∈ session.announcements, a.offset + session.earlyFire < Text.word64)
    (htime : session.beginsAt gateways launch = time)
    (h : t.Shows gateways time (.loaded session (session.startedAt (time * 1000))) none) :
    ∃ u, Unrolls t (session.spoken time 0 session.announcements ++
        session.ending gateways launch) u ∧
      u.Shows gateways (session.endsAt gateways launch) (.loaded session (.ended 0))
        (session.autoRestart.map fun delay =>
          (.autoRestart, session.endsAt gateways launch + delay)) := by
  obtain ⟨hsound, hticking⟩ := h.session_sound
  have hticks : 0 < session.total ⌈/⌉ session.tick := by
    rw [lt_iff_lt_of_le_iff_le (ceilDiv_le_iff_le_mul hticking)]
    exact hsound.positive
  obtain ⟨n, hn⟩ := Nat.exists_eq_add_of_le hticks
  obtain ⟨u, hu, hfinished⟩ := Shows.ticks recorded (k := 0) fits hn h
  have hfinish : session.finishesAt gateways launch =
      time + session.tick * (session.total ⌈/⌉ session.tick) := by rw [Session.finishesAt, htime]
  obtain ⟨rest, v, hending, hv, hshows⟩ := hfinished.ending recorded hfinish
  refine ⟨v, ?_, hshows⟩
  rw [hending, ← List.append_assoc]
  exact hu.trans hv

theorem Shows.round
    (fits : ∀ a ∈ session.announcements, a.offset + session.earlyFire < Text.word64)
    (h : t.Shows gateways time (.loaded session (session.launched (time * 1000)))
      ((Countdown.loaded session (session.launched (time * 1000))).due gateways time
        (.started (session.launch (time * 1000)).2))) :
    ∃ noted u, session.round gateways time =
        (State.ready.traces (.loaded session (session.launched (time * 1000)))
          (.started (session.launch (time * 1000)).2) time).map (time, ·) ++ noted ∧
      Unrolls t noted u ∧
      u.Shows gateways (session.endsAt gateways time) (.loaded session (.ended 0))
        (session.autoRestart.map fun delay =>
          (.autoRestart, session.endsAt gateways time + delay)) := by
  by_cases hstart : session.sayStart
  · have hlaunched : session.launched (time * 1000) = .starting := if_pos hstart
    have hplan : (session.launch (time * 1000)).2 = .speak session.startMessage := by
      rw [Session.launch, if_pos hstart]
    have hbegins : session.beginsAt gateways time =
        time + gateways.patience session.speechTimeout time session.startMessage := if_pos hstart
    have hlater : time ≤ session.beginsAt gateways time := by omega
    rw [hlaunched, hplan] at h ⊢
    have hspeaks : t.Shows gateways time (.loaded session .starting)
        (some (.startMessage, session.beginsAt gateways time)) := hbegins ▸ h
    obtain ⟨u, hu, hbegun⟩ := hspeaks.begin recorded hlater
    obtain ⟨v, hv, hshows⟩ := hbegun.running recorded fits rfl
    refine ⟨_, v, ?_, hu.trans hv, hshows⟩
    simp only [Session.round, if_pos hstart, List.append_assoc]
    rfl
  · have hlaunched : session.launched (time * 1000) = session.startedAt (time * 1000) :=
      if_neg hstart
    have hplan : (session.launch (time * 1000)).2 = .running := by
      rw [Session.launch, if_neg hstart]
    have hbegins : session.beginsAt gateways time = time := if_neg hstart
    rw [hlaunched, hplan] at h ⊢
    obtain ⟨u, hu, hshows⟩ := h.running recorded fits hbegins
    refine ⟨_, u, ?_, hu, hshows⟩
    simp only [Session.round, if_neg hstart, hbegins, List.append_assoc]
    rfl

theorem Shows.again {again : Nat} (later : time ≤ again)
    (h : t.Shows gateways time (.loaded session (.ended 0)) (some (.autoRestart, again))) :
    let plan := (session.launch (again * 1000)).2
    let next := Countdown.loaded session (session.launched (again * 1000))
    ∃ u, Unrolls t ((State.ended.traces next (.started plan) again).map (again, ·)) u ∧
      u.Shows gateways again next (next.due gateways again (.started plan)) :=
  h.next recorded h.upcoming_waitOver later rfl
    (relaunch_countdown (.loaded session (.ended 0)) session (again * 1000))

theorem Shows.forecast (more : Nat)
    (fits : ∀ a ∈ session.announcements, a.offset + session.earlyFire < Text.word64)
    (h : t.Shows gateways time (.loaded session (session.launched (time * 1000)))
      ((Countdown.loaded session (session.launched (time * 1000))).due gateways time
        (.started (session.launch (time * 1000)).2))) :
    ∃ noted u, session.forecast gateways more time =
        (State.ready.traces (.loaded session (session.launched (time * 1000)))
          (.started (session.launch (time * 1000)).2) time).map (time, ·) ++ noted ∧
      Unrolls t noted u ∧ (u.upcoming = none ∨ time + more < u.now) := by
  -- a run takes time, so a horizon is passed after as many runs as milliseconds
  have hlater := lt_endsAt gateways h.session_sound.2 h.session_sound.1.positive
  induction more generalizing t time with
  | zero =>
    obtain ⟨noted, u, hround, hu, hended⟩ := h.round recorded fits
    refine ⟨noted, u, hround, hu, .inr ?_⟩
    rw [hended.now_eq]
    exact hlater time
  | succ more ih =>
    obtain ⟨noted, u, hround, hu, hended⟩ := h.round recorded fits
    cases hagain : session.autoRestart with
    | none =>
      rw [hagain] at hended
      refine ⟨noted, u, ?_, hu, .inl (hended.upcoming_none nofun)⟩
      simp only [Session.forecast, hagain, List.append_nil]
      exact hround
    | some delay =>
      rw [hagain] at hended
      obtain ⟨v, hv, hlaunched⟩ := hended.again recorded (Nat.le_add_right ..)
      obtain ⟨rest, w, hforecast, hw, hdone⟩ := ih hlaunched
      refine ⟨_, w, ?_, hu.trans (hv.trans hw), hdone.imp_right fun hdone => ?_⟩
      · simp only [Session.forecast, hagain, hround, hforecast, traces_relaunch]
        simp
      · have hends := hlater time
        omega

end

-- ---------------------------------------------------------------------------
-- The start
-- ---------------------------------------------------------------------------

theorem ready_of_accepted {state : State} (accepted : (t.perform .start).2 = .ok state) :
    t.closed = false ∧ ∃ session, t.countdown = .loaded session .ready := by
  obtain ⟨gateways, now, c, wait, nextTick, answered, closed, journal⟩ := t
  cases closed with
  | true => cases accepted
  | false =>
    rw [perform_eq rfl, addressed_eq] at accepted
    rcases c with _ | ⟨session, _ | _ | _ | _ | _ | _⟩
    case loaded.ready => exact ⟨rfl, session, rfl⟩
    all_goals cases accepted

theorem InStep.shows_start (h : t.InStep) (recorded : t.gateways.recorded = true)
    (hopen : t.closed = false) (hready : t.countdown = .loaded session .ready) :
    let plan := (session.launch (t.now * 1000)).2
    let next := Countdown.loaded session (session.launched (t.now * 1000))
    (t.perform .start).1.Shows t.gateways t.now next (next.due t.gateways t.now (.started plan)) ∧
      (t.perform .start).1.journal =
        (State.ready.traces next (.started plan) t.now).reverse ++ t.journal := by
  intro plan next
  have hwait : t.wait = none := h.wait_eq_none (by rw [hready]; rfl)
  have hstep : (t.perform .start).1.InStep := h.turn (t.happen_turn (.command .start))
  obtain ⟨gateways, now, c, wait, nextTick, answered, closed, journal⟩ := t
  subst hready hwait hopen
  let ready : Timeline :=
    ⟨gateways, now, .loaded session .ready, none, nextTick, true, false, journal⟩
  have reacts : ready.Reacts (.start (now * 1000)) (ready.carryOut .start).1 :=
    ready.carryOut_reacts .start
  have hnext : (ready.countdown.perform (.start (now * 1000))).countdown = next := by
    show ((session.launch (now * 1000)).1.getLast?).getD _ = next
    rw [session.getLast_launch]
    rfl
  have hvalue : (ready.countdown.perform (.start (now * 1000))).value = .ok (.started plan) := rfl
  refine ⟨⟨hstep, ?_, ?_, ?_⟩, ?_⟩
  · exact reacts.setting.trans (by rw [hnext])
  · exact (reacts.until rfl hvalue).trans (by rw [hnext])
  · refine followStart_paced _ fun running => launched_running ?_
    exact (congrArg Countdown.state hnext).symm.trans running
  · refine reacts.journal.trans ?_
    rw [reacts.countdown, hnext, hvalue]
    exact traces_reverse recorded

/-- An uninterrupted run: from an accepted start on, up to any time, the journal
is the forecast made at the start, as far as that time, and nothing else, as long
as every offset and the early-fire margin make a word. -/
theorem run_as_forecast (speech : Nat → String → Speech) (chime : Nat)
    (history : List Occurrence) {state : State}
    (accepted : ((({ gateways := { speech, chime } } : Timeline).after history).perform .start).2 =
      .ok state) :
    let gateways : Gateways := { speech, chime }
    let t := ({ gateways } : Timeline).after history
    ∃ (settings : Settings) (session : Session), settings.session = .ok session ∧
      t.countdown = .loaded session .ready ∧
      ((∀ a ∈ session.announcements, a.offset + session.earlyFire < Text.word64) →
        ∀ more horizon, t.now ≤ horizon → horizon ≤ t.now + more →
          ((t.perform .start).1.runTo horizon).journal =
            (((session.forecast gateways more t.now).filter (·.1 ≤ horizon)).map (·.2)).reverse ++
              t.journal) := by
  intro gateways t
  have h : t.InStep := (InStep.start gateways).after history
  obtain ⟨hopen, session, hready⟩ := ready_of_accepted accepted
  obtain ⟨settings, hsettings⟩ := h.origin session (by rw [hready]; rfl)
  have hgateways : t.gateways = gateways := gateways_after { gateways } history
  obtain ⟨hshows, hjournal⟩ := h.shows_start (by rw [hgateways]) hopen hready
  refine ⟨settings, session, hsettings, hready, fun fits more horizon hnow hhorizon => ?_⟩
  rw [hgateways] at hshows
  obtain ⟨noted, u, hforecast, hu, hdone⟩ := hshows.forecast rfl more fits
  have hrun := hu.journal_runTo hshows.inStep (hshows.now_eq.trans_le hnow)
    (hdone.imp_right fun hlate => by omega)
  rw [hrun, hjournal, hforecast]
  simp [List.filter_map, Function.comp_def, hnow]

end

-- ---------------------------------------------------------------------------
-- Ten seconds with two announcements
-- ---------------------------------------------------------------------------

theorem after_configure {settings : Settings} {session : Session}
    (h : settings.session = .ok session) (gateways : Gateways) :
    ({ gateways } : Timeline).after [.command (.configure settings)] =
      { gateways, countdown := .loaded session .ready, answered := true,
        journal := [.change ⟨.unset, .ready⟩] } := by
  simp only [after_cons, after_nil, happen, Timeline.perform, cancelAutoRestart, configure,
    Countdown.state, h]
  rfl

/-- Ten seconds with a start message, an end message and a chime, ticks that are
far apart and announcements long before they are due. -/
def eager : Settings :=
  { tenSeconds with
    sayStart := true, sayEnd := true, endChime := true, tick := 400, earlyFire := 6000 }

def eagerSession : Session :=
  { tenSecondsSession with
    sayStart := true, sayEnd := true, endChime := true, tick := 400, earlyFire := 6000 }

set_option maxRecDepth 10000 in
theorem eager_session : eager.session = .ok eagerSession := by
  have h : eager.session = .ok _ := rfl
  rw [h, Reconciliation.reconcile_of_descending (by decide +kernel)]
  decide +kernel

/-- The start message takes its time, the end of the end message is never heard of. -/
def slowly (_ : Nat) (text : String) : Speech :=
  if text = "Time's up!" then .held else .after 700

theorem run_as_forecast_eager :
    let t := ({ gateways := { speech := slowly, chime := 1500 } } : Timeline).after
      [.command (.configure eager)]
    (t.perform .start).2 = .ok .starting ∧
      ((t.perform .start).1.runTo 30000).journal.reverse =
        [.change ⟨.unset, .ready⟩, .change ⟨.ready, .starting⟩,
          .say 0 "Ready. Set. Go!" Rate.normal, .change ⟨.starting, .running⟩,
          .say 1100 "Five" Rate.normal, .say 1900 "Three" Rate.normal,
          .change ⟨.running, .ending⟩, .say 10700 "Time's up!" Rate.normal, .chime 25700,
          .change ⟨.ending, .ended⟩] := by
  have hready := after_configure eager_session { speech := slowly, chime := 1500 }
  have accepted : ((({ gateways := { speech := slowly, chime := 1500 } } : Timeline).after
      [.command (.configure eager)]).perform .start).2 = .ok .starting := by
    rw [hready]
    rfl
  obtain ⟨settings, session, -, hloaded, hjournal⟩ := run_as_forecast slowly 1500 _ accepted
  rw [hready] at hloaded hjournal accepted ⊢
  obtain rfl : eagerSession = session := by cases hloaded; rfl
  refine ⟨accepted, ?_⟩
  rw [hjournal (by decide) 30000 30000 (by decide) (by decide)]
  decide +kernel

end Timeline

end SpokenCountdown
