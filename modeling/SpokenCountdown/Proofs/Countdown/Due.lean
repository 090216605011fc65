import SpokenCountdown.Countdown
import SpokenCountdown.Proofs.Checked

/-!
# What is due

A tick asks twice whether the head of the queue is due: its plan does, with a sum that
stops at the greatest word, and the queue does, with one that wraps around. They agree
wherever the plain sum is a word, so an announcement that was planned is there to be
taken. And none is lost: what any calls take from a queue and what they leave of it are
the queue again. Both are said by `plan_agrees`.
-/

namespace SpokenCountdown

namespace Announcement

theorem isPlanned_of_fits {a : Announcement} {earlyFire : Nat}
    (h : a.offset + earlyFire < Text.word64) (remaining : Nat) :
    a.isPlanned remaining earlyFire = a.isDue remaining earlyFire := by
  have hsum : min (a.offset + earlyFire) (Text.word64 - 1) = a.offset + earlyFire :=
    Nat.min_eq_left (Nat.le_sub_one_of_lt h)
  rw [isPlanned, isDue_of_lt h, hsum]

end Announcement

namespace Queue

/-- The plain sum of the head's offset and the margin is a word. -/
def Fits (queue : Queue) (earlyFire : Nat) : Prop :=
  ∀ a ∈ queue.head?, a.offset + earlyFire < Text.word64

structure Call where
  remaining : Nat
  earlyFire : Nat
  deriving DecidableEq, Repr

def popEach (queue : Queue) : List Call → List Announcement × Queue
  | [] => ([], queue)
  | call :: calls =>
    let (taken, rest) := queue.popDue call.remaining call.earlyFire
    let (more, left) := popEach rest calls
    (taken.toList ++ more, left)

end Queue

-- ---------------------------------------------------------------------------
-- On machine words
-- ---------------------------------------------------------------------------

namespace Words

/-- Takes the head if it is due. The sum has to be a word. -/
def popDue (queue : Queue) (remaining earlyFire : Nat) : Checked (Option Announcement × Queue) :=
  match queue with
  | [] => pure (none, [])
  | head :: rest => do
    let due ← add head.offset earlyFire
    pure (if remaining ≤ due then (some head, rest) else (none, head :: rest))

def popEach (queue : Queue) : List Queue.Call → Checked (List Announcement × Queue)
  | [] => pure ([], queue)
  | call :: calls => do
    let (taken, rest) ← popDue queue call.remaining call.earlyFire
    let (more, left) ← popEach rest calls
    pure (taken.toList ++ more, left)

end Words

section
variable {queue : Queue} {remaining earlyFire : Nat}

-- ---------------------------------------------------------------------------
-- One call
-- ---------------------------------------------------------------------------

namespace Queue

theorem popDue_cases (queue : Queue) (remaining earlyFire : Nat) :
    queue.popDue remaining earlyFire = (none, queue) ∨
      ∃ a rest, queue = a :: rest ∧ queue.popDue remaining earlyFire = (some a, rest) := by
  unfold popDue
  split
  · exact .inl rfl
  · split
    · exact .inr ⟨_, _, rfl, rfl⟩
    · exact .inl rfl

theorem popDue_append (queue : Queue) (remaining earlyFire : Nat) :
    (queue.popDue remaining earlyFire).1.toList ++ (queue.popDue remaining earlyFire).2 = queue := by
  rcases popDue_cases queue remaining earlyFire with h | ⟨a, rest, rfl, h⟩ <;> rw [h] <;> rfl

theorem mem_of_mem_popDue {a : Announcement}
    (h : a ∈ (queue.popDue remaining earlyFire).2) : a ∈ queue := by
  rw [← popDue_append queue remaining earlyFire]
  exact List.mem_append_right _ h

end Queue

theorem Words.popDue_eq (h : queue.Fits earlyFire) (remaining : Nat) :
    popDue queue remaining earlyFire = .ok (queue.popDue remaining earlyFire) := by
  cases queue with
  | nil => rfl
  | cons a rest =>
    rw [popDue, add_eq (h a rfl), ok_bind]
    simp only [Queue.popDue, Announcement.isDue_of_lt (h a rfl), decide_eq_true_eq]
    rfl

theorem planTick_zero (head : Option Announcement) (earlyFire : Nat) :
    planTick 0 head earlyFire = .finish := rfl

theorem planTick_of_pos (h : queue.Fits earlyFire) (positive : 0 < remaining) :
    planTick remaining queue.head? earlyFire =
      if (queue.popDue remaining earlyFire).1.isSome then .announce else .idle := by
  unfold planTick
  rw [if_neg (Nat.ne_of_gt positive)]
  cases queue with
  | nil => rfl
  | cons a rest =>
    have hplan := Announcement.isPlanned_of_fits (h a rfl) remaining
    cases hdue : a.isDue remaining earlyFire <;> simp [Queue.popDue, hplan, hdue]

theorem planTick_announce_iff (h : queue.Fits earlyFire) :
    planTick remaining queue.head? earlyFire = .announce ↔
      0 < remaining ∧
        ∃ a rest, queue = a :: rest ∧ queue.popDue remaining earlyFire = (some a, rest) := by
  rcases Nat.eq_zero_or_pos remaining with rfl | positive
  · simp [planTick_zero]
  · rw [planTick_of_pos h positive]
    rcases queue.popDue_cases remaining earlyFire with hnone | ⟨a, rest, rfl, hsome⟩
    · simp [hnone]
    · simp [hsome, positive]

theorem planTick_idle_iff (h : queue.Fits earlyFire) :
    planTick remaining queue.head? earlyFire = .idle ↔
      0 < remaining ∧ queue.popDue remaining earlyFire = (none, queue) := by
  rcases Nat.eq_zero_or_pos remaining with rfl | positive
  · simp [planTick_zero]
  · rw [planTick_of_pos h positive]
    rcases queue.popDue_cases remaining earlyFire with hnone | ⟨a, rest, rfl, hsome⟩
    · simp [hnone, positive]
    · simp [hsome]

-- ---------------------------------------------------------------------------
-- A tick
-- ---------------------------------------------------------------------------

namespace Countdown

variable {session : Session}

/-- A tick that planned an announcement hands it out, and one that has none to hand out
did not plan any. -/
theorem tick_planned (h : queue.Fits session.earlyFire) (remaining anchor now : Nat) :
    let c : Countdown := .loaded session (.running remaining queue anchor)
    let (left, anchor) := elapse remaining anchor now
    let plan := planTick left queue.head? session.earlyFire
    (plan = .announce → ∃ a rest, queue = a :: rest ∧
        c.tick now = c.visit [.loaded session (.running left rest anchor)] (.announce a)) ∧
      ((c.tick now).value = .idle ↔ plan = .idle) := by
  intro c
  simp only [c, tick]
  generalize elapse remaining anchor now = elapsed
  obtain ⟨left, anchor⟩ := elapsed
  dsimp only
  cases hplan : planTick left queue.head? session.earlyFire with
  | idle => exact ⟨nofun, iff_of_true rfl rfl⟩
  | finish => exact ⟨nofun, iff_of_false nofun nofun⟩
  | announce =>
    obtain ⟨-, a, rest, hqueue, hpop⟩ := (planTick_announce_iff h).mp hplan
    simp only [hpop]
    exact ⟨fun _ => ⟨a, rest, hqueue, rfl⟩, iff_of_false nofun nofun⟩

end Countdown

end

-- ---------------------------------------------------------------------------
-- Any number of calls
-- ---------------------------------------------------------------------------

theorem Queue.popEach_append (queue : Queue) (calls : List Call) :
    (queue.popEach calls).1 ++ (queue.popEach calls).2 = queue := by
  induction calls generalizing queue with
  | nil => rfl
  | cons call calls ih =>
    simp only [popEach, List.append_assoc]
    rw [ih]
    exact popDue_append queue call.remaining call.earlyFire

theorem Words.popEach_eq {queue : Queue} {calls : List Queue.Call}
    (h : ∀ a ∈ queue, ∀ call ∈ calls, a.offset + call.earlyFire < Text.word64) :
    popEach queue calls = .ok (queue.popEach calls) := by
  induction calls generalizing queue with
  | nil => rfl
  | cons call calls ih =>
    have hfits : queue.Fits call.earlyFire :=
      fun a ha => h a (List.mem_of_mem_head? ha) call List.mem_cons_self
    have hrest : popEach (queue.popDue call.remaining call.earlyFire).2 calls =
        .ok ((queue.popDue call.remaining call.earlyFire).2.popEach calls) :=
      ih fun a ha other hother =>
        h a (Queue.mem_of_mem_popDue ha) other (List.mem_cons_of_mem call hother)
    rw [popEach, popDue_eq hfits, ok_bind]
    dsimp only
    rw [hrest]
    rfl

namespace Queue

/-- Where the plain sum is a word, a tick plans an announcement exactly if time remains and
the queue gives its head, and stays idle only if the queue gives nothing and keeps all; so no
tick plans an announcement and then finds none. In any series of calls, what is taken and
what is left make up the queue. -/
theorem plan_agrees (queue : Queue) :
    (∀ remaining earlyFire, queue.Fits earlyFire →
      Words.popDue queue remaining earlyFire = .ok (queue.popDue remaining earlyFire) ∧
        (planTick remaining queue.head? earlyFire = .announce ↔
          0 < remaining ∧
            ∃ a rest, queue = a :: rest ∧ queue.popDue remaining earlyFire = (some a, rest)) ∧
        (planTick remaining queue.head? earlyFire = .idle →
          queue.popDue remaining earlyFire = (none, queue))) ∧
      (∀ (session : Session) (remaining anchor now : Nat), queue.Fits session.earlyFire →
        let c : Countdown := .loaded session (.running remaining queue anchor)
        let (left, anchor) := Countdown.elapse remaining anchor now
        let plan := planTick left queue.head? session.earlyFire
        (plan = .announce → ∃ a rest, queue = a :: rest ∧
            c.tick now = c.visit [.loaded session (.running left rest anchor)] (.announce a)) ∧
          ((c.tick now).value = .idle ↔ plan = .idle)) ∧
      ∀ calls,
        (queue.popEach calls).1 ++ (queue.popEach calls).2 = queue ∧
          ((∀ a ∈ queue, ∀ call ∈ calls, a.offset + call.earlyFire < Text.word64) →
            Words.popEach queue calls = .ok (queue.popEach calls)) := by
  refine ⟨fun remaining earlyFire h => ⟨?_, ?_, ?_⟩, fun session remaining anchor now h => ?_,
    fun calls => ⟨?_, ?_⟩⟩
  · exact Words.popDue_eq h remaining
  · exact planTick_announce_iff h
  · exact fun hplan => ((planTick_idle_iff h).mp hplan).2
  · exact Countdown.tick_planned h remaining anchor now
  · exact queue.popEach_append calls
  · exact Words.popEach_eq

/-- Two hundred milliseconds ahead of its time, ten seconds are planned and taken. -/
theorem plan_agrees_early :
    let queue : Queue := [⟨10000, "10", Rate.fast⟩, ⟨9000, "9", Rate.fast⟩]
    queue.Fits 250 ∧ planTick 10200 queue.head? 250 = .announce ∧
      0 < 10200 ∧ ∃ a rest, queue = a :: rest ∧ queue.popDue 10200 250 = (some a, rest) := by
  intro queue
  have hfits : queue.Fits 250 := by
    rintro a ⟨⟩
    decide
  have hplan : planTick 10200 queue.head? 250 = .announce := rfl
  exact ⟨hfits, hplan, (((plan_agrees queue).1 10200 250 hfits).2.1).mp hplan⟩

-- The plan is made although the sum is no word. Checked, the queue cannot count so far;
-- unchecked, it finds nothing due.
example : planTick 1 (some ⟨1, "1", Rate.fast⟩) (Text.word64 - 1) = .announce ∧
    Words.popDue [⟨1, "1", Rate.fast⟩] 1 (Text.word64 - 1) = .error .overflow ∧
    Queue.popDue [⟨1, "1", Rate.fast⟩] 1 (Text.word64 - 1) = (none, [⟨1, "1", Rate.fast⟩]) :=
  ⟨rfl, rfl, rfl⟩

end Queue

end SpokenCountdown
