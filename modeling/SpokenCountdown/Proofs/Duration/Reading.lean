import SpokenCountdown.Proofs.Checked
import SpokenCountdown.Session

/-!
# Which durations are accepted

A number is accepted unless it is zero. A text is accepted if, without the blanks
around it, it is a numeral or a clock: two or three fields between colons. What it
comes to is cut at a day: `durations_accepted`.

The rules for a text say nothing of how it is read; `ofText_eq_ok_iff` ties them to
the reader. On machine words nothing overflows on the way (`Words.milliseconds_eq`).
-/

namespace SpokenCountdown

open Text (IsNumeral)

namespace Duration

-- ---------------------------------------------------------------------------
-- The rules
-- ---------------------------------------------------------------------------

structure IsField (n : Nat) (cs : List Char) : Prop where
  numeral : IsNumeral n cs
  short : cs.length ≤ 2

inductive IsClock : List Char → Nat → Nat → Nat → Prop where
  | minutes {m s : Nat} {minutes seconds : List Char} (hm : IsField m minutes)
      (hs : IsField s seconds) : IsClock (minutes ++ ':' :: seconds) 0 m s
  | hours {h m s : Nat} {hours minutes seconds : List Char} (hh : IsField h hours)
      (hm : IsField m minutes) (hs : IsField s seconds) :
      IsClock (hours ++ ':' :: (minutes ++ ':' :: seconds)) h m s

/-- What a text without blanks around it comes to. -/
inductive Denotes (cs : List Char) : Nat → Prop where
  | seconds {n : Nat} (h : IsNumeral n cs) (fits : n < Text.word64) : Denotes cs (n * 1000)
  | clock {hours minutes seconds : Nat} (h : IsClock cs hours minutes seconds)
      (hm : minutes ≤ 59) (hs : seconds ≤ 59) : Denotes cs (ofClock hours minutes seconds)

section
variable {n m h s ms : Nat} {c : Char} {cs hours minutes seconds : List Char}
  {fields : List (List Char)} {text : String}

-- ---------------------------------------------------------------------------
-- Fields
-- ---------------------------------------------------------------------------

theorem IsField.lt_hundred (h : IsField n cs) : n < 100 := by
  have hplaces : ∀ k ≤ 2, Nat.pow 10 k ≤ 100 := by decide
  exact Nat.lt_of_lt_of_le h.numeral.lt_pow (hplaces _ h.short)

theorem IsField.colon_not_mem (h : IsField n cs) : ':' ∉ cs :=
  h.numeral.not_mem (by decide)

theorem field?_eq_some_iff : field? cs = some n ↔ IsField n cs := by
  unfold field?
  constructor
  · intro h
    split at h
    · exact ⟨(Text.readNumeral_eq_some_iff.mp h).1, ‹_›⟩
    · cases h
  · intro h
    rw [if_pos h.short]
    exact Text.readNumeral_eq_some_iff.mpr ⟨h.numeral, h.lt_hundred⟩

theorem isField_zero : IsField 0 ['0'] :=
  field?_eq_some_iff.mp rfl

theorem clock_eq_ok_iff : ofFields.clock hours minutes seconds = .ok ms ↔
    ∃ h m s, IsField h hours ∧ IsField m minutes ∧ IsField s seconds ∧ m ≤ 59 ∧ s ≤ 59 ∧
      ms = ofClock h m s := by
  unfold ofFields.clock
  constructor
  · intro hread
    split at hread
    · rename_i h m s hh hm hs
      split at hread
      · cases hread
      · rename_i hrange
        obtain ⟨hm59, hs59⟩ := not_or.mp hrange
        exact ⟨h, m, s, field?_eq_some_iff.mp hh, field?_eq_some_iff.mp hm,
          field?_eq_some_iff.mp hs, Nat.le_of_not_lt hm59, Nat.le_of_not_lt hs59,
          (Except.ok.inj hread).symm⟩
    · cases hread
  · rintro ⟨h, m, s, hh, hm, hs, hm59, hs59, rfl⟩
    have hrange : ¬ (m > 59 ∨ s > 59) := not_or.mpr ⟨Nat.not_lt.mpr hm59, Nat.not_lt.mpr hs59⟩
    simp only [field?_eq_some_iff.mpr hh, field?_eq_some_iff.mpr hm, field?_eq_some_iff.mpr hs,
      if_neg hrange]

-- ---------------------------------------------------------------------------
-- Texts
-- ---------------------------------------------------------------------------

theorem Denotes.of_ofFields (hread : ofFields fields = .ok ms) :
    Denotes ([':'].intercalate fields) ms := by
  unfold ofFields at hread
  split at hread
  · split at hread
    · rename_i hn
      obtain ⟨hn, fits⟩ := Text.readNumeral_eq_some_iff.mp hn
      cases hread
      exact .seconds (by simpa using hn) fits
    · cases hread
  · obtain ⟨h, m, s, hh, hminutes, hseconds, hm, hs, rfl⟩ := clock_eq_ok_iff.mp hread
    have hzero : h = 0 := hh.numeral.unique isField_zero.numeral
    subst hzero
    exact .clock (by simpa using IsClock.minutes hminutes hseconds) hm hs
  · obtain ⟨h, m, s, hhours, hminutes, hseconds, hm, hs, rfl⟩ := clock_eq_ok_iff.mp hread
    exact .clock (by simpa using IsClock.hours hhours hminutes hseconds) hm hs
  · cases hread

theorem IsClock.ofFields_splitOn (h : IsClock cs n m s) (hm : m ≤ 59) (hs : s ≤ 59) :
    ofFields (cs.splitOn ':') = .ok (ofClock n m s) := by
  cases h with
  | minutes hminutes hseconds =>
    rw [List.splitOn_append_cons_self_of_not_mem hminutes.colon_not_mem,
      List.splitOn_eq_singleton hseconds.colon_not_mem]
    exact clock_eq_ok_iff.mpr ⟨0, m, s, isField_zero, hminutes, hseconds, hm, hs, rfl⟩
  | hours hhours hminutes hseconds =>
    rw [List.splitOn_append_cons_self_of_not_mem hhours.colon_not_mem,
      List.splitOn_append_cons_self_of_not_mem hminutes.colon_not_mem,
      List.splitOn_eq_singleton hseconds.colon_not_mem]
    exact clock_eq_ok_iff.mpr ⟨n, m, s, hhours, hminutes, hseconds, hm, hs, rfl⟩

theorem Denotes.ofFields_splitOn (h : Denotes cs ms) : ofFields (cs.splitOn ':') = .ok ms := by
  cases h with
  | seconds h fits =>
    rw [List.splitOn_eq_singleton (h.not_mem (by decide))]
    simp only [ofFields, Text.readNumeral_eq_some_iff.mpr ⟨h, fits⟩]
  | clock h hm hs => exact h.ofFields_splitOn hm hs

theorem Denotes.ne_nil (h : Denotes cs ms) : cs ≠ [] := by
  cases h with
  | seconds h => exact h.nonempty
  | clock h => cases h <;> simp

theorem Denotes.head_isDigit (hcs : Denotes (c :: cs) ms) : c.isDigit = true := by
  generalize htext : c :: cs = text at hcs
  cases hcs with
  | seconds h =>
    subst htext
    exact h.digits c List.mem_cons_self
  | clock h =>
    cases h with
    | minutes hm => exact hm.numeral.head_isDigit htext.symm
    | hours hh => exact hh.numeral.head_isDigit htext.symm

theorem ofText_eq_ok_iff : ofText text = .ok ms ↔ Denotes (Text.trimChars text.toList) ms := by
  unfold ofText
  split
  · rename_i hempty
    rw [hempty]
    constructor
    · intro h
      cases h
    · intro h
      exact absurd rfl h.ne_nil
  · constructor
    · intro h
      have hread := Denotes.of_ofFields h
      rwa [List.intercalate_splitOn] at hread
    · exact Denotes.ofFields_splitOn

-- ---------------------------------------------------------------------------
-- Zero and the cap
-- ---------------------------------------------------------------------------

/-- No time at all is refused, and more than a day is a day. -/
def limit (ms : Nat) : Except Fault Nat :=
  if ms = 0 then .error .zero else .ok (min ms longest)

theorem limit_eq_ok_iff : limit n = .ok ms ↔ n ≠ 0 ∧ ms = min n longest := by
  unfold limit
  split <;> simp_all [eq_comm]

theorem ofClock_eq_zero_iff : ofClock h m s = 0 ↔ h = 0 ∧ m = 0 ∧ s = 0 := by
  unfold ofClock
  omega

theorem denotes_and_ne_zero_iff :
    (∃ span, Denotes cs span ∧ span ≠ 0 ∧ ms = min span longest) ↔
      (∃ v, IsNumeral v cs ∧ 1 ≤ v ∧ v < Text.word64 ∧ ms = min (v * 1000) longest) ∨
        ∃ hours minutes seconds, IsClock cs hours minutes seconds ∧ minutes ≤ 59 ∧ seconds ≤ 59 ∧
          ¬ (hours = 0 ∧ minutes = 0 ∧ seconds = 0) ∧
          ms = min (ofClock hours minutes seconds) longest := by
  constructor
  · rintro ⟨span, hspan, hne, hms⟩
    cases hspan with
    | @seconds v h fits =>
      have hpos : 1 ≤ v := Nat.pos_of_mul_pos_right (Nat.pos_of_ne_zero hne)
      exact .inl ⟨v, h, hpos, fits, hms⟩
    | clock h hm hs => exact .inr ⟨_, _, _, h, hm, hs, mt ofClock_eq_zero_iff.mpr hne, hms⟩
  · rintro (⟨v, h, hpos, fits, hms⟩ | ⟨hours, minutes, seconds, h, hm, hs, hne, hms⟩)
    · have hne : v * 1000 ≠ 0 := Nat.ne_of_gt (Nat.mul_pos hpos (by decide))
      exact ⟨_, .seconds h fits, hne, hms⟩
    · exact ⟨_, .clock h hm hs, mt ofClock_eq_zero_iff.mp hne, hms⟩

end

end Duration

namespace DurationInput

open Duration (limit)

theorem milliseconds_number (n : Nat) :
    (number n).milliseconds = limit (Duration.ofNumber n) :=
  rfl

theorem milliseconds_number_eq (n : Nat) : (number n).milliseconds =
    if n = 0 then .error .zero
    else .ok (if n < 10000 then min (n * 1000) 86400000 else min n 86400000) := by
  rw [milliseconds_number]
  unfold Duration.limit Duration.ofNumber
  by_cases hzero : n = 0
  · simp [hzero]
  · have hscaled : n * 1000 ≠ 0 := Nat.mul_ne_zero hzero (by decide)
    by_cases hfew : n < 10000
    · simp only [Duration.secondsThreshold, Duration.longest, hfew, hzero, hscaled, if_true,
        if_false]
    · simp only [Duration.secondsThreshold, Duration.longest, hfew, hzero, if_false]

theorem milliseconds_text (s : String) :
    (text s).milliseconds = (Duration.ofText s).bind limit :=
  rfl

section
variable {input : DurationInput} {s : String} {ms : Nat}

theorem milliseconds_text_eq_ok_iff : (text s).milliseconds = .ok ms ↔
    ∃ span, Duration.Denotes (Text.trimChars s.toList) span ∧ span ≠ 0 ∧
      ms = min span Duration.longest := by
  rw [milliseconds_text]
  constructor
  · intro h
    cases hread : Duration.ofText s with
    | error fault =>
      rw [hread] at h
      cases h
    | ok span =>
      rw [hread] at h
      exact ⟨span, Duration.ofText_eq_ok_iff.mp hread, Duration.limit_eq_ok_iff.mp h⟩
  · rintro ⟨span, hspan, hlimit⟩
    rw [Duration.ofText_eq_ok_iff.mpr hspan]
    exact Duration.limit_eq_ok_iff.mpr hlimit

theorem milliseconds_bounds (h : input.milliseconds = .ok ms) : 1 ≤ ms ∧ ms ≤ 86400000 := by
  have capped {span : Nat} (hspan : span ≠ 0) : 1 ≤ min span Duration.longest ∧
      min span Duration.longest ≤ 86400000 :=
    ⟨Nat.le_min.mpr ⟨Nat.pos_of_ne_zero hspan, by decide⟩, Nat.min_le_right _ _⟩
  cases input with
  | number n =>
    obtain ⟨hspan, rfl⟩ := Duration.limit_eq_ok_iff.mp h
    exact capped hspan
  | text s =>
    obtain ⟨span, -, hspan, rfl⟩ := milliseconds_text_eq_ok_iff.mp h
    exact capped hspan

end

end DurationInput

-- ---------------------------------------------------------------------------
-- On machine words
-- ---------------------------------------------------------------------------

namespace Words

open Duration (limit field?)

def ofNumber (n : Nat) : Checked Nat :=
  if n < Duration.secondsThreshold then mul n 1000 else pure n

def ofClock (hours minutes seconds : Nat) : Checked Nat := do
  let hours ← mul hours 3600000
  let minutes ← mul minutes 60000
  let sum ← add hours minutes
  let seconds ← mul seconds 1000
  add sum seconds

def ofFields : List (List Char) → Checked (Except Duration.Fault Nat)
  | [seconds] =>
    match Text.readNumeral Text.word64 seconds with
    | some n => pure (.ok (mulSaturating n 1000))
    | none => pure (.error .notNumeral)
  | [minutes, seconds] => clock ['0'] minutes seconds
  | [hours, minutes, seconds] => clock hours minutes seconds
  | _ => pure (.error .tooManyFields)
where
  clock (hours minutes seconds : List Char) : Checked (Except Duration.Fault Nat) :=
    match field? hours, field? minutes, field? seconds with
    | some h, some m, some s =>
      if m > 59 ∨ s > 59 then pure (.error .fieldRange)
      else do
        let ms ← ofClock h m s
        pure (.ok ms)
    | _, _, _ => pure (.error .fieldWidth)

def milliseconds : DurationInput → Checked (Except Duration.Fault Nat)
  | .number n => do
    let ms ← ofNumber n
    pure (limit ms)
  | .text s =>
    match Text.trimChars s.toList with
    | [] => pure (.error .empty)
    | cs => do
      let ms ← ofFields (cs.splitOn ':')
      pure (ms.bind limit)

section
variable {n h m s : Nat}

theorem ofNumber_eq (n : Nat) : ofNumber n = .ok (Duration.ofNumber n) := by
  unfold ofNumber Duration.ofNumber
  split
  · rename_i hfew
    exact mul_eq (Nat.lt_trans (Nat.mul_lt_mul_of_pos_right hfew (by decide)) (by decide))
  · rfl

theorem ofClock_eq (hh : h < 100) (hm : m ≤ 59) (hs : s ≤ 59) :
    ofClock h m s = .ok (Duration.ofClock h m s) := by
  have hall : Duration.ofClock h m s < 1000000000 := by
    unfold Duration.ofClock
    omega
  have hword : Duration.ofClock h m s < Text.word64 := Nat.lt_trans hall (by decide)
  unfold Duration.ofClock at hword
  have hsum := Nat.lt_of_le_of_lt (Nat.le_add_right _ _) hword
  have hhours := Nat.lt_of_le_of_lt (Nat.le_add_right _ _) hsum
  have hminutes := Nat.lt_of_le_of_lt (Nat.le_add_left _ _) hsum
  have hseconds := Nat.lt_of_le_of_lt (Nat.le_add_left _ _) hword
  rw [ofClock, mul_eq hhours, ok_bind, mul_eq hminutes, ok_bind, add_eq hsum, ok_bind,
    mul_eq hseconds, ok_bind, add_eq hword]
  rfl

theorem limit_mulSaturating (n : Nat) : limit (mulSaturating n 1000) = limit (n * 1000) := by
  have hword : Duration.longest < Text.word64 - 1 := by decide
  have hzero : mulSaturating n 1000 = 0 ↔ n * 1000 = 0 := by
    unfold mulSaturating
    omega
  have hcapped : min (mulSaturating n 1000) Duration.longest = min (n * 1000) Duration.longest := by
    unfold mulSaturating
    omega
  simp only [limit, hzero, hcapped]

theorem clock_eq (hours minutes seconds : List Char) :
    ofFields.clock hours minutes seconds = .ok (Duration.ofFields.clock hours minutes seconds) := by
  unfold ofFields.clock Duration.ofFields.clock
  cases hh : field? hours with
  | none => rfl
  | some h =>
    cases hm : field? minutes with
    | none => rfl
    | some m =>
      cases hs : field? seconds with
      | none => rfl
      | some s =>
        dsimp only
        split
        · rfl
        · rename_i hrange
          obtain ⟨hm59, hs59⟩ := not_or.mp hrange
          rw [ofClock_eq (Duration.field?_eq_some_iff.mp hh).lt_hundred (Nat.le_of_not_lt hm59)
            (Nat.le_of_not_lt hs59)]
          rfl

theorem ofFields_eq (fields : List (List Char)) :
    ∃ ms, ofFields fields = .ok ms ∧ ms.bind limit = (Duration.ofFields fields).bind limit := by
  match fields with
  | [] | _ :: _ :: _ :: _ :: _ => exact ⟨_, rfl, rfl⟩
  | [seconds] =>
    simp only [ofFields, Duration.ofFields]
    cases Text.readNumeral Text.word64 seconds with
    | none => exact ⟨_, rfl, rfl⟩
    | some n => exact ⟨_, rfl, limit_mulSaturating n⟩
  | [minutes, seconds] => exact ⟨_, clock_eq ['0'] minutes seconds, rfl⟩
  | [hours, minutes, seconds] => exact ⟨_, clock_eq hours minutes seconds, rfl⟩

theorem milliseconds_eq (input : DurationInput) :
    milliseconds input = .ok input.milliseconds := by
  cases input with
  | number n =>
    rw [milliseconds, ofNumber_eq, ok_bind]
    rfl
  | text s =>
    rw [milliseconds, DurationInput.milliseconds_text, Duration.ofText]
    cases Text.trimChars s.toList with
    | nil => rfl
    | cons c cs =>
      obtain ⟨ms, hms, hlimit⟩ := ofFields_eq ((c :: cs).splitOn ':')
      dsimp only
      rw [hms, ok_bind, hlimit]
      rfl

end

end Words

-- ---------------------------------------------------------------------------
-- Durations
-- ---------------------------------------------------------------------------

theorem Sources.announcements_ne_duration (sources : Sources) (total : Nat) (shown : String)
    (fault : Duration.Fault) : sources.announcements total ≠ .error (.duration shown fault) := by
  unfold announcements
  split
  · exact nofun
  · split <;> exact nofun

theorem Settings.session_duration_iff {settings : Settings} {shown : String}
    {fault : Duration.Fault} : settings.session = .error (.duration shown fault) ↔
      settings.duration.milliseconds = .error fault ∧ shown = settings.duration.shown := by
  unfold session
  cases settings.duration.milliseconds with
  | error other => simp [and_comm, eq_comm]
  | ok total =>
    have hother := settings.sources.announcements_ne_duration total shown fault
    cases hsources : settings.sources.announcements total with
    | error e =>
      have hne : e ≠ .duration shown fault := fun h => hother (h ▸ hsources)
      simp [hsources, hne]
    | ok announcements => simp [hsources]

/-- A number counts seconds or, from ten thousand on, milliseconds. A text counts
seconds or is a clock. Any other text is refused, and so is what comes to nothing;
settings are refused for their duration exactly then. No product on the way is too
large for a word. -/
theorem durations_accepted :
    (∀ n, (DurationInput.number n).milliseconds =
      if n = 0 then .error .zero
      else .ok (if n < 10000 then min (n * 1000) 86400000 else min n 86400000)) ∧
    (∀ s ms, (DurationInput.text s).milliseconds = .ok ms ↔
      (∃ v, IsNumeral v (Text.trimChars s.toList) ∧ 1 ≤ v ∧ v < Text.word64 ∧
        ms = min (v * 1000) 86400000) ∨
      ∃ hours minutes seconds,
        Duration.IsClock (Text.trimChars s.toList) hours minutes seconds ∧
        minutes ≤ 59 ∧ seconds ≤ 59 ∧ ¬ (hours = 0 ∧ minutes = 0 ∧ seconds = 0) ∧
        ms = min (hours * 3600000 + minutes * 60000 + seconds * 1000) 86400000) ∧
    (∀ (input : DurationInput) ms, input.milliseconds = .ok ms → 1 ≤ ms ∧ ms ≤ 86400000) ∧
    (∀ input, Words.milliseconds input = .ok input.milliseconds) ∧
    ∀ (settings : Settings) shown fault, settings.session = .error (.duration shown fault) ↔
      settings.duration.milliseconds = .error fault ∧ shown = settings.duration.shown := by
  refine ⟨DurationInput.milliseconds_number_eq, fun s ms => ?_, fun input ms h => ?_,
    Words.milliseconds_eq, fun settings shown fault => ?_⟩
  · exact DurationInput.milliseconds_text_eq_ok_iff.trans Duration.denotes_and_ne_zero_iff
  · exact DurationInput.milliseconds_bounds h
  · exact Settings.session_duration_iff

theorem durations_accepted_padded :
    (DurationInput.text " 01:2:03 ").milliseconds = .ok 3723000 ∧
      1 ≤ 3723000 ∧ 3723000 ≤ 86400000 := by
  have htrim : Text.trimChars " 01:2:03 ".toList = "01:2:03".toList := by decide
  have hclock : Duration.IsClock "01:2:03".toList 1 2 3 :=
    .hours (Duration.field?_eq_some_iff.mp (by decide : Duration.field? ['0', '1'] = some 1))
      (Duration.field?_eq_some_iff.mp (by decide : Duration.field? ['2'] = some 2))
      (Duration.field?_eq_some_iff.mp (by decide : Duration.field? ['0', '3'] = some 3))
  have hread : (DurationInput.text " 01:2:03 ").milliseconds = .ok 3723000 :=
    (durations_accepted.2.1 _ _).mpr
      (.inr ⟨1, 2, 3, htrim ▸ hclock, by decide, by decide, by decide, by decide⟩)
  exact ⟨hread, durations_accepted.2.2.1 _ _ hread⟩

end SpokenCountdown
