import SpokenCountdown.Binary
import SpokenCountdown.Text.Numeral

/-!
# Announcements and their queue

An announcement is due once the remaining time is within the early-fire margin
of its offset. The queue of a run holds what is still to be spoken, the next
one first.
-/

namespace SpokenCountdown

/-- A message spoken when `offset` milliseconds remain. -/
structure Announcement where
  offset : Nat
  message : String
  /-- Speaking rate, single precision. -/
  rate : Binary
  deriving DecidableEq, Repr, Inhabited

namespace Rate

def normal : Binary := Binary.ofRatio .single false 1 1

/-- For short countdown numbers, which have to end before the next one. -/
def fast : Binary := Binary.ofRatio .single false 3 2

end Rate

namespace Announcement

/-- The queue's test: its sum is a 64-bit word and wraps around. -/
def isDue (a : Announcement) (remaining earlyFire : Nat) : Bool :=
  remaining ≤ (a.offset + earlyFire) % Text.word64

/-- The test a tick plans with: its sum stops at the greatest word. -/
def isPlanned (a : Announcement) (remaining earlyFire : Nat) : Bool :=
  remaining ≤ min (a.offset + earlyFire) (Text.word64 - 1)

theorem le_of_isDue {a : Announcement} (h : a.isDue remaining earlyFire = true) :
    remaining ≤ a.offset + earlyFire :=
  Nat.le_trans (of_decide_eq_true h) (Nat.mod_le ..)

theorem isPlanned_of_isDue {a : Announcement} (h : a.isDue remaining earlyFire = true) :
    a.isPlanned remaining earlyFire = true := by
  have hword : remaining < Text.word64 :=
    Nat.lt_of_le_of_lt (of_decide_eq_true h) (Nat.mod_lt _ (by decide))
  exact decide_eq_true (Nat.le_min.mpr ⟨le_of_isDue h, Nat.le_sub_one_of_lt hword⟩)

theorem isDue_of_lt {a : Announcement} (h : a.offset + earlyFire < Text.word64) (remaining : Nat) :
    a.isDue remaining earlyFire = decide (remaining ≤ a.offset + earlyFire) := by
  rw [isDue, Nat.mod_eq_of_lt h]

theorem lt_of_not_isDue {a : Announcement} (h : a.offset + earlyFire < Text.word64)
    (notDue : a.isDue remaining earlyFire = false) : a.offset + earlyFire < remaining := by
  rw [isDue_of_lt h] at notDue
  exact Nat.lt_of_not_le (of_decide_eq_false notDue)

end Announcement

abbrev Queue := List Announcement

namespace Queue

def popDue (queue : Queue) (remaining earlyFire : Nat) : Option Announcement × Queue :=
  match queue with
  | [] => (none, [])
  | head :: rest =>
    if head.isDue remaining earlyFire then (some head, rest) else (none, head :: rest)

def offsets (queue : Queue) : List Nat :=
  queue.map (·.offset)

end Queue

inductive TickPlan where
  | idle
  | announce
  | finish
  deriving DecidableEq, Repr

def planTick (remaining : Nat) (head : Option Announcement) (earlyFire : Nat) : TickPlan :=
  if remaining = 0 then .finish
  else match head with
    | some a => if a.isPlanned remaining earlyFire then .announce else .idle
    | none => .idle

end SpokenCountdown
