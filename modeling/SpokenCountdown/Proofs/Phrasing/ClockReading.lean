import SpokenCountdown.Proofs.Expansion.Safety
import SpokenCountdown.Proofs.Phrasing.Spoken

/-!
# Long spans as a clock shows them

From twenty seconds on a message lists hours, minutes and seconds. They add up to the span
to the nearest second, but the seconds are rounded once the minutes have been taken off, and
nothing is carried: half a second before a full minute the message says 60 seconds. So it is
what a clock shows exactly if the span is not that close to the next minute:
`timeMessage_shows_iff`.
-/

namespace SpokenCountdown.Spoken

def amounts (hours minutes seconds : Nat) : List (TimeUnit × Nat) :=
  [(.hours, hours), (.minutes, minutes), (.seconds, seconds)]

/-- The span to the nearest second, a half upwards. -/
def Nearest (ms seconds : Nat) : Prop :=
  1000 * seconds ≤ ms + 500 ∧ ms < 1000 * seconds + 500

/-- The message says hours, minutes and seconds, without those that are zero, and ends in the
suffix. -/
structure Tells (message suffix : String) (hours minutes seconds : Nat) : Prop where
  nonempty : listed (amounts hours minutes seconds) ≠ []
  text : message.toList = joined (amounts hours minutes seconds) ++ suffix.toList

/-- The message says what a clock shows for the span. -/
def Shows (message suffix : String) (ms : Nat) : Prop :=
  ∃ hours minutes seconds, Tells message suffix hours minutes seconds ∧
    minutes < 60 ∧ seconds < 60 ∧ Nearest ms (3600 * hours + 60 * minutes + seconds)

section
variable {unit : TimeUnit} {n : Nat} {xs ys : List (TimeUnit × Nat)} {ms : Nat}
  {message suffix : String}

-- ---------------------------------------------------------------------------
-- What is said is said once
-- ---------------------------------------------------------------------------

def following (xs : List (TimeUnit × Nat)) : List Char :=
  if joined xs = [] then [] else ',' :: ' ' :: joined xs

theorem following_inj (h : following xs = following ys) : joined xs = joined ys := by
  unfold following at h
  split at h <;> split at h
  · rename_i hxs hys
    rw [hxs, hys]
  · cases h
  · cases h
  · exact (List.cons.inj (List.cons.inj h).2).2

theorem joined_of_zero (h : ∀ amount ∈ xs, amount.2 = 0) : joined xs = [] := by
  induction xs with
  | nil => rfl
  | cons amount xs ih =>
    obtain ⟨unit, n⟩ := amount
    obtain rfl : n = 0 := h (unit, n) List.mem_cons_self
    rw [joined_zero]
    exact ih fun amount hamount => h amount (List.mem_cons_of_mem _ hamount)

theorem positive_or_zero (xs : List (TimeUnit × Nat)) :
    (∃ amount ∈ xs, 0 < amount.2) ∨ ∀ amount ∈ xs, amount.2 = 0 := by
  by_cases h : ∃ amount ∈ xs, 0 < amount.2
  · exact .inl h
  · refine .inr fun amount hamount => Nat.eq_zero_of_not_pos fun positive => ?_
    exact h ⟨amount, hamount, positive⟩

theorem joined_positive (hn : 0 < n) (xs : List (TimeUnit × Nat)) :
    joined ((unit, n) :: xs) = quantity n unit ++ following xs := by
  rcases positive_or_zero xs with h | h
  · have hne : joined xs ≠ [] := by
      obtain ⟨amount, -, more, hjoined⟩ := joined_eq h
      simp [hjoined, quantity, Text.numeral_ne_nil]
    rw [joined_cons hn h, following, if_neg hne]
  · rw [joined_singleton hn h, following, if_pos (joined_of_zero h), List.append_nil]

theorem quantity?_absent (h : unit ∉ xs.map Prod.fst) : quantity? unit (joined xs) = none := by
  rcases positive_or_zero xs with hpositive | hzero
  · rw [← List.append_nil (joined xs)]
    exact quantity?_joined hpositive h
  · rw [joined_of_zero hzero]
    rfl

theorem quantity?_joined_cons (h : unit ∉ xs.map Prod.fst) :
    quantity? unit (joined ((unit, n) :: xs)) = if n = 0 then none else some (n, following xs) := by
  split
  · rename_i hzero
    rw [hzero, joined_zero, quantity?_absent h]
  · rename_i hn
    rw [joined_positive (Nat.pos_of_ne_zero hn), quantity?_quantity]

theorem joined_inj (hunits : xs.map Prod.fst = ys.map Prod.fst) (hnodup : (xs.map Prod.fst).Nodup)
    (h : joined xs = joined ys) : xs = ys := by
  induction xs generalizing ys with
  | nil =>
    cases ys with
    | nil => rfl
    | cons => cases hunits
  | cons amount xs ih =>
    obtain ⟨unit, n⟩ := amount
    cases ys with
    | nil => cases hunits
    | cons other ys =>
      obtain ⟨unit', k⟩ := other
      obtain ⟨rfl, hrest⟩ := List.cons.inj hunits
      obtain ⟨hx, hxs⟩ := List.nodup_cons.mp hnodup
      have hy : unit ∉ ys.map Prod.fst := by rwa [← hrest]
      have hread := congrArg (quantity? unit) h
      rw [quantity?_joined_cons hx, quantity?_joined_cons hy] at hread
      split at hread <;> split at hread
      · rename_i hn hk
        subst hn hk
        rw [ih hrest hxs h]
      · cases hread
      · cases hread
      · obtain ⟨rfl, hfollowing⟩ := Prod.mk.inj (Option.some.inj hread)
        rw [ih hrest hxs (following_inj hfollowing)]

theorem Tells.unique {h m s h' m' s' : Nat} (htells : Tells message suffix h m s)
    (hother : Tells message suffix h' m' s') : h = h' ∧ m = m' ∧ s = s' := by
  have hjoined := List.append_cancel_right (htells.text.symm.trans hother.text)
  have hamounts : amounts h m s = amounts h' m' s' :=
    joined_inj rfl (by simp [amounts]) hjoined
  simpa [amounts] using hamounts

-- ---------------------------------------------------------------------------
-- Messages
-- ---------------------------------------------------------------------------

theorem timeMessage_tells (long : 20000 ≤ ms) (suffix : String) (force : Bool) :
    Tells (Phrasing.timeMessage ms suffix force) suffix (ms / 3600000) (ms % 3600000 / 60000)
      (Phrasing.roundSeconds (ms % 60000)) := by
  have hlong : ¬ ms < Phrasing.secondsOnlyBelow := Nat.not_lt_of_le long
  exact ⟨listed_ne_nil (clock_positive hlong), timeMessage_clock hlong force⟩

theorem nearest_clock (ms : Nat) : Nearest ms
    (3600 * (ms / 3600000) + 60 * (ms % 3600000 / 60000) + Phrasing.roundSeconds (ms % 60000)) := by
  unfold Nearest Phrasing.roundSeconds
  omega

theorem clock_seconds (ms : Nat) : Phrasing.roundSeconds (ms % 60000) ≤ 60 ∧
    (Phrasing.roundSeconds (ms % 60000) < 60 ↔ ms % 60000 < 59500) := by
  unfold Phrasing.roundSeconds
  omega

theorem shows_iff (long : 20000 ≤ ms) (suffix : String) (force : Bool) :
    Shows (Phrasing.timeMessage ms suffix force) suffix ms ↔ ms % 60000 < 59500 := by
  have htells := timeMessage_tells long suffix force
  rw [← (clock_seconds ms).2]
  constructor
  · rintro ⟨h, m, s, hother, -, hs, -⟩
    obtain ⟨-, -, rfl⟩ := htells.unique hother
    exact hs
  · exact fun hs => ⟨_, _, _, htells, by omega, hs, nearest_clock ms⟩

/-- A message for twenty seconds or more says hours, minutes and seconds in one way. They add
up to the span to the nearest second. The minutes are fewer than sixty, and the seconds are
sixty at most; so the message is what a clock shows unless the span is half a second or less
before a full minute. No span is too long for a word. -/
theorem timeMessage_shows_iff (long : 20000 ≤ ms) (suffix : String) (force : Bool) :
    (Shows (Phrasing.timeMessage ms suffix force) suffix ms ↔ ms % 60000 < 59500) ∧
      (∃ hours minutes seconds,
        Tells (Phrasing.timeMessage ms suffix force) suffix hours minutes seconds ∧
          minutes < 60 ∧ seconds ≤ 60 ∧
          Nearest ms (3600 * hours + 60 * minutes + seconds) ∧
          (seconds = 60 ↔ 59500 ≤ ms % 60000) ∧
          ∀ h m s, Tells (Phrasing.timeMessage ms suffix force) suffix h m s →
            h = hours ∧ m = minutes ∧ s = seconds) ∧
      (ms < Text.word64 →
        Words.timeMessage ms suffix force = .ok (Phrasing.timeMessage ms suffix force)) := by
  have htells := timeMessage_tells long suffix force
  obtain ⟨hle, hlt⟩ := clock_seconds ms
  refine ⟨shows_iff long suffix force, ⟨_, _, _, htells, by omega, hle, nearest_clock ms, by omega,
    fun h m s hother => hother.unique htells⟩, fun hword => ?_⟩
  exact Words.timeMessage_eq hword suffix force

end

theorem timeMessage_shows_iff_hour :
    20000 ≤ 3661000 ∧
      (Shows (Phrasing.timeMessage 3661000 "" true) "" 3661000 ↔ 3661000 % 60000 < 59500) ∧
      (∃ hours minutes seconds,
        Tells (Phrasing.timeMessage 3661000 "" true) "" hours minutes seconds ∧
          minutes < 60 ∧ seconds ≤ 60 ∧
          Nearest 3661000 (3600 * hours + 60 * minutes + seconds) ∧
          (seconds = 60 ↔ 59500 ≤ 3661000 % 60000) ∧
          ∀ h m s, Tells (Phrasing.timeMessage 3661000 "" true) "" h m s →
            h = hours ∧ m = minutes ∧ s = seconds) ∧
      (3661000 < Text.word64 →
        Words.timeMessage 3661000 "" true = .ok (Phrasing.timeMessage 3661000 "" true)) :=
  ⟨by decide, timeMessage_shows_iff (by decide) "" true⟩

/-- A millisecond before two minutes are full, the message says one minute and 60 seconds. -/
theorem minute_not_carried :
    Phrasing.timeMessage 119999 " to go" false = "1 minute, 60 seconds to go" ∧
      ¬ ∀ ms, 20000 ≤ ms → ms < Text.word64 → ∀ suffix force,
        Shows (Phrasing.timeMessage ms suffix force) suffix ms := by
  refine ⟨by decide +kernel, fun hshows => ?_⟩
  have hcarried := hshows 119999 (by decide) (by decide) " to go" false
  rw [shows_iff (by decide)] at hcarried
  exact absurd hcarried (by decide)

end SpokenCountdown.Spoken
