import Mathlib.Algebra.GroupWithZero.Nat
import SpokenCountdown.Proofs.Countdown.Transition

/-!
# The time that is counted

A logbook keeps, beside a countdown, the stretches of time for which it ran
since it was last loaded: when each began, and of which instants the ticks and
the pause in it told. The remaining time is the total less the whole
milliseconds of the stretches, each taken from its begin to the latest instant
told of. So it does not matter how a stretch was cut into ticks, nor in which
order their instants came, and between two stretches nothing is counted.
-/

namespace SpokenCountdown

open Countdown

/-- A stretch for which a countdown ran. `latest` is the greatest instant told
of in it, `last` the one that came last. -/
structure Stretch where
  entered : Nat
  latest : Nat
  last : Nat
  deriving DecidableEq, Repr

namespace Stretch

def begun (now : Nat) : Stretch :=
  ⟨now, now, now⟩

def told (s : Stretch) (now : Nat) : Stretch :=
  { s with latest := max s.latest now, last := now }

def counted (s : Stretch) : Nat :=
  (s.latest - s.entered) / 1000

def total (stretches : List Stretch) : Nat :=
  (stretches.map counted).sum

theorem told_counted_le (s : Stretch) (now : Nat) : s.counted ≤ (s.told now).counted := by
  simp only [counted, told]
  omega

/-- The anchor of a stretch lies less than a millisecond before the latest
instant, so an earlier one counts nothing and a later one what it adds. -/
theorem elapse_told {s : Stretch} (h : s.entered ≤ s.latest) (remaining now : Nat) :
    elapse remaining (s.entered + 1000 * s.counted) now =
      (remaining - ((s.told now).counted - s.counted),
        s.entered + 1000 * (s.told now).counted) := by
  simp only [elapse, counted, told, Prod.mk.injEq]
  omega

end Stretch

/-- A countdown and the stretches for which it ran since it was last loaded, the
latest first. -/
structure Logbook where
  countdown : Countdown := .unset
  stretches : List Stretch := []
  deriving DecidableEq, Repr

namespace Logbook

/-- A countdown that runs now has just begun to. -/
def enter (d : Countdown) (now : Nat) (stretches : List Stretch) : List Stretch :=
  if d.state = .running then .begun now :: stretches else stretches

def tell (now : Nat) : List Stretch → List Stretch
  | [] => []
  | s :: rest => s.told now :: rest

/-- Loading begins a new list; a run that begins or goes on opens a stretch; a
tick while it runs and an accepted pause tell of an instant. -/
def noted (c d : Countdown) (stretches : List Stretch) : Operation → Answer → List Stretch
  | .configure _, .ok _ | .reset _, .ok _ => []
  | .restart now, .ok _ | .autoRestart now, .ok _ => enter d now []
  | .start now, .ok _ | .beginRunning now, .ok _ | .resume now, .ok _ => enter d now stretches
  | .tick now, .ok _ => if c.state = .running then tell now stretches else stretches
  | .pause now, .ok _ => tell now stretches
  | _, _ => stretches

def perform (r : Logbook) (op : Operation) : Logbook :=
  let step := r.countdown.perform op
  ⟨step.countdown, noted r.countdown step.countdown r.stretches op step.value⟩

def after (r : Logbook) (history : List Operation) : Logbook :=
  history.foldl perform r

@[simp] theorem noted_error (c d : Countdown) (stretches : List Stretch) (op : Operation)
    (refusal : Refusal) : noted c d stretches op (.error refusal) = stretches := by
  cases op <;> rfl

theorem countdown_after (r : Logbook) (history : List Operation) :
    (r.after history).countdown = r.countdown.after history := by
  induction history generalizing r with
  | nil => rfl
  | cons op rest ih => exact ih (r.perform op)

end Logbook

-- ---------------------------------------------------------------------------
-- What is counted
-- ---------------------------------------------------------------------------

/-- The stretches account for the remaining time, and the anchor lies where the
count of the present stretch ends. -/
structure Countdown.Reckoned (c : Countdown) (stretches : List Stretch) : Prop where
  remaining : c.remaining = c.total - Stretch.total stretches
  anchored : ∀ anchor ∈ c.anchor?, ∃ s ∈ stretches.head?,
    s.entered ≤ s.latest ∧ anchor = s.entered + 1000 * s.counted

section
variable {session : Session} {run : Run} {stretches : List Stretch} {c d : Countdown}
  {op : Operation} {answer : Answer} {outcome : TickOutcome}
  {remaining anchor now : Nat} {queue : Queue}

namespace Session

theorem afterEndMessage_remaining (session : Session) (remaining total : Nat) :
    (session.afterEndMessage remaining).1.remaining total = remaining := by
  unfold afterEndMessage
  split <;> rfl

theorem afterEndMessage_anchor? (session : Session) (remaining : Nat) :
    (session.afterEndMessage remaining).1.anchor? = none := by
  unfold afterEndMessage
  split <;> rfl

theorem finish_anchor? (session : Session) (remaining : Nat) :
    (session.finish remaining).1.anchor? = none := by
  unfold finish
  split
  · rfl
  · exact session.afterEndMessage_anchor? remaining

end Session

namespace Countdown

theorem reckoned_of_idle (hremaining : c.remaining = c.total - Stretch.total stretches)
    (hanchor : c.anchor? = none) : c.Reckoned stretches := by
  refine ⟨hremaining, ?_⟩
  intro anchor h
  cases hanchor.symm.trans h

theorem reckoned_running (hremaining : remaining = session.total - Stretch.total stretches)
    (queue : Queue) (now : Nat) :
    (loaded session (.running remaining queue now)).Reckoned (.begun now :: stretches) := by
  constructor
  · have hsum : Stretch.total (.begun now :: stretches) = Stretch.total stretches := by
      simp [Stretch.total, Stretch.begun, Stretch.counted]
    rw [hsum]
    exact hremaining
  · rintro anchor ⟨⟩
    exact ⟨.begun now, rfl, Nat.le_refl now, by simp [Stretch.begun, Stretch.counted]⟩

theorem reckoned_launched (hfull : session.total = session.total - Stretch.total stretches)
    (now : Nat) : (loaded session (session.launched now)).Reckoned
      (Logbook.enter (loaded session (session.launched now)) now stretches) := by
  unfold Session.launched
  split
  · exact reckoned_of_idle hfull rfl
  · exact reckoned_running hfull session.announcements now

theorem Reckoned.told (h : (loaded session (.running remaining queue anchor)).Reckoned stretches)
    (now : Nat) : ∃ s rest, Logbook.tell now stretches = s :: rest ∧ s.entered ≤ s.latest ∧
      (elapse remaining anchor now).1 =
        session.total - Stretch.total (Logbook.tell now stretches) ∧
      (elapse remaining anchor now).2 = s.entered + 1000 * s.counted := by
  obtain ⟨s, hs, hle, rfl⟩ := h.anchored anchor rfl
  have hremaining : remaining = session.total - Stretch.total stretches := h.remaining
  obtain ⟨rest, rfl⟩ : ∃ rest, stretches = s :: rest := by
    cases stretches with
    | nil => cases hs
    | cons head rest => cases hs; exact ⟨rest, rfl⟩
  have hmore := s.told_counted_le now
  refine ⟨s.told now, rest, rfl, Nat.le_trans hle (Nat.le_max_left ..), ?_, ?_⟩
  · rw [Stretch.elapse_told hle, hremaining]
    simp only [Stretch.total, Logbook.tell, List.map_cons, List.sum_cons]
    omega
  · rw [Stretch.elapse_told hle]
    rfl

theorem Ticked.reckoned (h : (loaded session (.running remaining queue anchor)).Reckoned stretches)
    (way : Ticked session (elapse remaining anchor now).2 (elapse remaining anchor now).1 queue
      outcome run) : (loaded session run).Reckoned (Logbook.tell now stretches) := by
  obtain ⟨s, rest, htell, hle, hremaining, hanchor⟩ := h.told now
  generalize (elapse remaining anchor now).1 = left at way hremaining
  generalize (elapse remaining anchor now).2 = next at way hanchor
  have anchored : ∀ a ∈ some next, ∃ s ∈ (Logbook.tell now stretches).head?,
      s.entered ≤ s.latest ∧ a = s.entered + 1000 * s.counted := by
    rintro a ⟨⟩
    exact ⟨s, by rw [htell]; rfl, hle, hanchor⟩
  cases way with
  | waited | announced => exact ⟨hremaining, anchored⟩
  | finished =>
    refine reckoned_of_idle ?_ (session.finish_anchor? 0)
    exact (session.finish_remaining 0 session.total).trans hremaining

theorem Transition.reckoned (h : Transition c op answer d) (hc : c.Reckoned stretches) :
    d.Reckoned (Logbook.noted c d stretches op answer) := by
  cases h with
  | refused =>
    rw [Logbook.noted_error]
    exact hc
  | overlooked notRunning =>
    rw [Logbook.noted, if_neg notRunning]
    exact hc
  | passed => exact hc
  | unloaded | misconfigured => exact reckoned_of_idle (Nat.zero_sub _).symm rfl
  | configured | reset => exact reckoned_of_idle rfl rfl
  | launched launches =>
    cases launches with
    | start => exact reckoned_launched hc.remaining _
    | restartPaused | restartEnded | autoRestart => exact reckoned_launched rfl _
  | begun => exact reckoned_running hc.remaining _ _
  | ticked way =>
    exact way.reckoned hc
  | paused =>
    obtain ⟨-, -, -, -, hremaining, -⟩ := hc.told _
    exact reckoned_of_idle hremaining rfl
  | resumed => exact reckoned_running hc.remaining _ _
  | silenced => exact reckoned_of_idle hc.remaining rfl
  | stopped =>
    refine reckoned_of_idle ?_ (Session.finish_anchor? ..)
    exact (Session.finish_remaining ..).trans hc.remaining
  | spoken =>
    refine reckoned_of_idle ?_ (Session.afterEndMessage_anchor? ..)
    exact (Session.afterEndMessage_remaining ..).trans hc.remaining
  | chimed => exact reckoned_of_idle hc.remaining rfl

-- ---------------------------------------------------------------------------
-- What is not counted
-- ---------------------------------------------------------------------------

/-- Loading and unloading set the remaining time anew. -/
def Operation.reloads : Operation → Bool
  | .configure _ | .reset _ | .restart _ | .autoRestart _ | .unload => true
  | _ => false

theorem Transition.remaining_eq (h : Transition c op answer d) (idle : c.state ≠ .running)
    (hop : op.reloads = false) : d.remaining = c.remaining := by
  cases h with
  | refused | overlooked | passed => rfl
  | unloaded | misconfigured | configured | reset => cases hop
  | @launched session _ _ now launches =>
    cases launches with
    | start =>
      simp only [remaining, Session.launched]
      split <;> rfl
    | restartPaused | restartEnded | autoRestart => cases hop
  | begun | resumed | silenced | chimed => rfl
  | ticked | paused => exact absurd rfl idle
  | stopped => exact Session.finish_remaining ..
  | spoken => exact Session.afterEndMessage_remaining ..

theorem resume_anchor? (h : c.state = .paused) (now : Nat) :
    (c.resume now).countdown.anchor? = some now := by
  rcases c with _ | ⟨session, _ | _ | _ | _ | _ | _⟩ <;> cases h
  rfl

-- ---------------------------------------------------------------------------
-- Instants in order
-- ---------------------------------------------------------------------------

def Operation.instant? : Operation → Option Nat
  | .start now | .beginRunning now | .tick now | .pause now | .resume now | .restart now
  | .autoRestart now => some now
  | .configure _ | .stop _ | .advanceEnding | .reset _ | .unload => none

end Countdown

theorem Logbook.mem_enter {s : Stretch} (h : s ∈ enter d now stretches) :
    s ∈ stretches ∨ s = .begun now := by
  unfold enter at h
  split at h
  · exact (List.mem_cons.mp h).symm
  · exact .inl h

theorem Logbook.mem_tell {s : Stretch} (h : s ∈ tell now stretches) :
    s ∈ stretches ∨ ∃ r ∈ stretches, s = r.told now := by
  cases stretches with
  | nil => cases h
  | cons r rest =>
    rcases List.mem_cons.mp h with rfl | h
    · exact .inr ⟨r, List.mem_cons_self, rfl⟩
    · exact .inl (List.mem_cons_of_mem r h)

theorem Logbook.mem_noted {s : Stretch} (h : s ∈ noted c d stretches op answer) :
    s ∈ stretches ∨ ∃ now ∈ op.instant?,
      s = .begun now ∨ ∃ r ∈ stretches, s = r.told now := by
  cases answer with
  | error refusal =>
    rw [noted_error] at h
    exact .inl h
  | ok reply =>
    cases op with
    | configure | reset => cases h
    | stop | advanceEnding | unload => exact .inl h
    | start now | beginRunning now | resume now =>
      exact (mem_enter h).imp_right fun hs => ⟨now, rfl, .inl hs⟩
    | restart now | autoRestart now =>
      rcases mem_enter h with h | hs
      · cases h
      · exact .inr ⟨now, rfl, .inl hs⟩
    | tick now =>
      simp only [noted] at h
      split at h
      · exact (mem_tell h).imp_right fun hs => ⟨now, rfl, .inr hs⟩
      · exact .inl h
    | pause now => exact (mem_tell h).imp_right fun hs => ⟨now, rfl, .inr hs⟩

/-- The instant that came last is the latest, and not after `bound`. -/
structure Stretch.Orderly (bound : Nat) (s : Stretch) : Prop where
  entered_le : s.entered ≤ s.last
  latest_eq : s.latest = s.last
  last_le : s.last ≤ bound

namespace Logbook

theorem noted_orderly {bound next : Nat} (h : ∀ s ∈ stretches, s.Orderly bound)
    (hbound : bound ≤ next) (hop : ∀ now ∈ op.instant?, bound ≤ now ∧ now ≤ next) :
    ∀ s ∈ noted c d stretches op answer, s.Orderly next := by
  intro s hs
  rcases mem_noted hs with hold | ⟨now, hnow, rfl | ⟨r, hr, rfl⟩⟩
  · obtain ⟨hentered, hlatest, hlast⟩ := h s hold
    exact ⟨hentered, hlatest, Nat.le_trans hlast hbound⟩
  · exact ⟨Nat.le_refl now, rfl, (hop now hnow).2⟩
  · obtain ⟨hentered, hlatest, hlast⟩ := h r hr
    obtain ⟨hlow, hhigh⟩ := hop now hnow
    have hle : r.last ≤ now := Nat.le_trans hlast hlow
    refine ⟨Nat.le_trans hentered hle, ?_, hhigh⟩
    simp only [Stretch.told, hlatest]
    exact Nat.max_eq_right hle

theorem after_orderly {bound : Nat} {history : List Operation} {r : Logbook}
    (h : ∀ s ∈ r.stretches, s.Orderly bound)
    (sorted : (bound :: history.filterMap (·.instant?)).Pairwise (· ≤ ·)) :
    ∃ bound, ∀ s ∈ (r.after history).stretches, s.Orderly bound := by
  induction history generalizing r bound with
  | nil => exact ⟨bound, h⟩
  | cons op rest ih =>
    cases hop : op.instant? with
    | none =>
      rw [List.filterMap_cons_none hop] at sorted
      refine ih (noted_orderly h (Nat.le_refl bound) ?_) sorted
      intro now hnow
      cases hop.symm.trans hnow
    | some now =>
      rw [List.filterMap_cons_some hop] at sorted
      obtain ⟨hall, hrest⟩ := List.pairwise_cons.mp sorted
      have hle : bound ≤ now := hall now List.mem_cons_self
      refine @ih now _ (noted_orderly h hle ?_) hrest
      intro later hlater
      obtain rfl : now = later := Option.some.inj (hop.symm.trans hlater)
      exact ⟨hle, Nat.le_refl now⟩

-- ---------------------------------------------------------------------------
-- Every history
-- ---------------------------------------------------------------------------

theorem after_reckoned {r : Logbook} (h : r.countdown.Reckoned r.stretches)
    (history : List Operation) :
    (r.after history).countdown.Reckoned (r.after history).stretches := by
  induction history generalizing r with
  | nil => exact h
  | cons op rest ih => exact ih ((perform_transition _ op).reckoned h)

theorem after_unset_reckoned (history : List Operation) :
    (({} : Logbook).after history).countdown.Reckoned (({} : Logbook).after history).stretches :=
  after_reckoned (r := {}) (reckoned_of_idle rfl rfl) history

/-- In every history, at whatever instants, the remaining time is the total less
the whole milliseconds of each stretch, up to the latest instant told of in it.
So two histories with the same stretches agree on it, nothing is counted while a
countdown does not run, and if no instant lies before an earlier one, each
stretch is counted in full but for less than a millisecond. -/
theorem remaining_reckoned (history : List Operation) :
    let r := ({} : Logbook).after history
    let c := r.countdown
    c = Countdown.unset.after history ∧
      c.remaining = c.total - (r.stretches.map fun s => (s.latest - s.entered) / 1000).sum ∧
      (∀ other, let q := ({} : Logbook).after other
        q.countdown.total = c.total →
        q.stretches.map (fun s => (s.entered, s.latest)) =
          r.stretches.map (fun s => (s.entered, s.latest)) →
        q.countdown.remaining = c.remaining) ∧
      (∀ op, c.state ≠ .running → op.reloads = false →
        (c.perform op).countdown.remaining = c.remaining) ∧
      (∀ now, c.state = .paused → (c.resume now).countdown.anchor? = some now) ∧
      ((history.filterMap (·.instant?)).Pairwise (· ≤ ·) → ∀ s ∈ r.stretches,
        s.latest = s.last ∧ s.entered + 1000 * s.counted ≤ s.last ∧
          s.last < s.entered + 1000 * (s.counted + 1)) := by
  intro r c
  have hc : c = Countdown.unset.after history := countdown_after {} history
  have hremaining : c.remaining = c.total - Stretch.total r.stretches :=
    (after_unset_reckoned history).remaining
  refine ⟨hc, hremaining, ?_, ?_, fun now hpaused => resume_anchor? hpaused now, ?_⟩
  · intro other q htotal hsame
    have hcounted (stretches : List Stretch) : Stretch.total stretches =
        ((stretches.map fun s => (s.entered, s.latest)).map fun b => (b.2 - b.1) / 1000).sum := by
      rw [List.map_map]
      rfl
    rw [(after_unset_reckoned other).remaining, hremaining, htotal, hcounted, hsame, ← hcounted]
  · intro op idle hop
    exact (perform_transition _ op).remaining_eq idle hop
  · intro sorted s hs
    have sorted : (0 :: history.filterMap (·.instant?)).Pairwise (· ≤ ·) :=
      List.pairwise_cons.mpr ⟨fun _ _ => Nat.zero_le _, sorted⟩
    obtain ⟨bound, horderly⟩ := after_orderly (r := {}) (by simp) sorted
    obtain ⟨hentered, hlatest, -⟩ := horderly s hs
    refine ⟨hlatest, ?_⟩
    rw [Stretch.counted, hlatest]
    omega

end Logbook

end

end SpokenCountdown
