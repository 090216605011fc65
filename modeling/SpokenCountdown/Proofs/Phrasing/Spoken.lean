import Mathlib.Algebra.GroupWithZero.Nat
import SpokenCountdown.Directive
import SpokenCountdown.Phrasing

/-!
# Spoken times read back

A message for a span of time is read as a listener would: a bare number counts
seconds, anything longer is a list of hours, minutes and seconds with an ending.
What is read back from a message is the span it was made for, to the nearest
second: `Spoken.read?_timeMessage`.
-/

namespace SpokenCountdown

structure Spoken where
  /-- The length it names, in milliseconds. -/
  span : Nat
  unitNamed : Bool
  /-- What follows the length. -/
  ending : List Char
  deriving DecidableEq, Repr

namespace Spoken

def noun : TimeUnit → String
  | .seconds => "second"
  | .minutes => "minute"
  | .hours => "hour"

def counted (n : Nat) (unit : TimeUnit) : List Char :=
  ' ' :: ((noun unit).toList ++ if n = 1 then [] else ['s'])

/-- A number of units at the beginning of a text, and what follows it. -/
def quantity? (unit : TimeUnit) (cs : List Char) : Option (Nat × List Char) :=
  let (digits, rest) := Text.digitRun cs
  let n := Nat.ofDigitChars 10 digits 0
  if digits ≠ [] ∧ (counted n unit).isPrefixOf rest then
    some (n, rest.drop (counted n unit).length)
  else
    none

/-- The sum of the quantities that a text lists, and what follows them. Each unit
occurs once at most, in the order given. -/
def quantities? : List TimeUnit → List Char → Option (Nat × List Char)
  | [], _ => none
  | unit :: units, cs =>
    match quantity? unit cs with
    | none => quantities? units cs
    | some (n, ',' :: ' ' :: more) =>
      (quantities? units more).map fun (span, ending) => (n * unit.milliseconds + span, ending)
    | some (n, ending) => some (n * unit.milliseconds, ending)

def read? (message : String) : Option Spoken :=
  let (digits, rest) := Text.digitRun message.toList
  if digits ≠ [] ∧ rest = [] then
    some ⟨Nat.ofDigitChars 10 digits 0 * 1000, false, []⟩
  else
    (quantities? [.hours, .minutes, .seconds] message.toList).map fun (span, ending) =>
      ⟨span, true, ending⟩

-- ---------------------------------------------------------------------------
-- One quantity
-- ---------------------------------------------------------------------------

section
variable {n : Nat} {unit other : TimeUnit} {cs rest ending : List Char}

def quantity (n : Nat) (unit : TimeUnit) : List Char :=
  Text.numeral n ++ counted n unit

theorem counted_head? : ∀ c ∈ (counted n unit ++ rest).head?, c.isDigit = false := by
  rintro c ⟨⟩
  rfl

theorem digitRun_quantity :
    Text.digitRun (quantity n unit ++ rest) = (Text.numeral n, counted n unit ++ rest) := by
  rw [quantity, List.append_assoc]
  exact Text.digitRun_of_digits (fun _ => Text.isDigit_of_mem_numeral) counted_head?

theorem quantity?_quantity : quantity? unit (quantity n unit ++ rest) = some (n, rest) := by
  simp [quantity?, digitRun_quantity, Text.ofDigitChars_numeral, Text.numeral_ne_nil]

theorem quantity?_other (h : unit ≠ other) : quantity? unit (quantity n other ++ rest) = none := by
  simp only [quantity?, digitRun_quantity, Text.ofDigitChars_numeral]
  refine if_neg fun hprefix => ?_
  cases unit <;> cases other <;> simp [counted, noun] at h hprefix

-- ---------------------------------------------------------------------------
-- Lists of quantities
-- ---------------------------------------------------------------------------

/-- The quantities of a list of units and numbers, without those that are zero. -/
def listed (amounts : List (TimeUnit × Nat)) : List (List Char) :=
  (amounts.filter fun amount => 0 < amount.2).map fun amount => quantity amount.2 amount.1

def joined (amounts : List (TimeUnit × Nat)) : List Char :=
  [',', ' '].intercalate (listed amounts)

def sum (amounts : List (TimeUnit × Nat)) : Nat :=
  (amounts.map fun amount => amount.2 * amount.1.milliseconds).sum

variable {amounts : List (TimeUnit × Nat)}

theorem listed_ne_nil (h : ∃ amount ∈ amounts, 0 < amount.2) : listed amounts ≠ [] := by
  obtain ⟨amount, hamount, positive⟩ := h
  have hfilter : amount ∈ amounts.filter fun amount => 0 < amount.2 :=
    List.mem_filter.mpr ⟨hamount, decide_eq_true positive⟩
  exact List.ne_nil_of_mem (List.mem_map_of_mem hfilter)

theorem sum_nil : sum [] = 0 := rfl

theorem sum_cons : sum ((unit, n) :: amounts) = n * unit.milliseconds + sum amounts := rfl

theorem sum_eq_zero (h : ∀ amount ∈ amounts, amount.2 = 0) : sum amounts = 0 := by
  refine List.sum_eq_zero_iff_forall_eq_nat.mpr ?_
  intro x hx
  obtain ⟨amount, hamount, rfl⟩ := List.mem_map.mp hx
  rw [h amount hamount, Nat.zero_mul]

theorem joined_eq (h : ∃ amount ∈ amounts, 0 < amount.2) :
    ∃ amount ∈ amounts, ∃ more, joined amounts = quantity amount.2 amount.1 ++ more := by
  have hne := listed_ne_nil h
  unfold joined
  cases hlisted : listed amounts with
  | nil => exact absurd hlisted hne
  | cons text texts =>
    have hmem : text ∈ listed amounts := by
      rw [hlisted]
      exact List.mem_cons_self
    obtain ⟨amount, hamount, rfl⟩ := List.mem_map.mp hmem
    refine ⟨amount, (List.mem_filter.mp hamount).1, ?_⟩
    cases texts with
    | nil => exact ⟨[], by simp⟩
    | cons other texts =>
      exact ⟨_, by rw [List.intercalate_cons_cons, List.append_assoc]⟩

theorem quantity?_joined (h : ∃ amount ∈ amounts, 0 < amount.2)
    (hunit : unit ∉ amounts.map Prod.fst) :
    quantity? unit (joined amounts ++ ending) = none := by
  obtain ⟨amount, hamount, more, hjoined⟩ := joined_eq h
  rw [hjoined, List.append_assoc]
  refine quantity?_other ?_
  rintro rfl
  exact hunit (List.mem_map_of_mem hamount)

theorem joined_zero : joined ((unit, 0) :: amounts) = joined amounts := rfl

theorem joined_cons (hn : 0 < n) (h : ∃ amount ∈ amounts, 0 < amount.2) :
    joined ((unit, n) :: amounts) = quantity n unit ++ (',' :: ' ' :: joined amounts) := by
  have hlisted : listed ((unit, n) :: amounts) = quantity n unit :: listed amounts := by
    simp [listed, hn]
  rw [joined, hlisted, List.intercalate_cons_of_ne_nil (listed_ne_nil h), List.append_assoc]
  rfl

theorem joined_singleton (hn : 0 < n) (h : ∀ amount ∈ amounts, amount.2 = 0) :
    joined ((unit, n) :: amounts) = quantity n unit := by
  have hnil : amounts.filter (fun amount => 0 < amount.2) = [] := by
    rw [List.filter_eq_nil_iff]
    intro amount hamount
    simp [h amount hamount]
  simp [joined, listed, hn, hnil]

theorem quantities?_last {units : List TimeUnit} (h : quantity? unit cs = some (n, ending))
    (hending : ending.head? ≠ some ',') :
    quantities? (unit :: units) cs = some (n * unit.milliseconds, ending) := by
  simp only [quantities?, h]
  split
  · rename_i heq
    cases heq
  · rename_i heq
    cases heq
    simp at hending
  · rename_i heq
    cases heq
    rfl

theorem quantities?_joined (hunits : (amounts.map Prod.fst).Nodup)
    (h : ∃ amount ∈ amounts, 0 < amount.2) (hending : ending.head? ≠ some ',') :
    quantities? (amounts.map Prod.fst) (joined amounts ++ ending) =
      some (sum amounts, ending) := by
  induction amounts with
  | nil =>
    obtain ⟨_, hmem, -⟩ := h
    cases hmem
  | cons amount amounts ih =>
    obtain ⟨unit, n⟩ := amount
    obtain ⟨hunit, hunits⟩ := List.nodup_cons.mp hunits
    by_cases hmore : ∃ amount ∈ amounts, 0 < amount.2
    · have ih := ih hunits hmore
      rcases Nat.eq_zero_or_pos n with rfl | hn
      · have hother : quantity? unit (joined amounts ++ ending) = none :=
          quantity?_joined hmore hunit
        rw [joined_zero]
        simp only [List.map_cons, quantities?, hother]
        rw [ih, sum_cons, Nat.zero_mul, Nat.zero_add]
      · rw [joined_cons hn hmore, List.append_assoc]
        simp only [List.map_cons, quantities?, quantity?_quantity, List.cons_append]
        rw [ih, sum_cons]
        rfl
    · have hzero : ∀ amount ∈ amounts, amount.2 = 0 := by
        intro amount hamount
        exact Nat.eq_zero_of_not_pos fun positive => hmore ⟨amount, hamount, positive⟩
      have hn : 0 < n := by
        obtain ⟨amount, hmem, positive⟩ := h
        rcases List.mem_cons.mp hmem with rfl | hmem
        · exact positive
        · exact absurd ⟨amount, hmem, positive⟩ hmore
      rw [joined_singleton hn hzero]
      rw [sum_cons, sum_eq_zero hzero, Nat.add_zero]
      exact quantities?_last quantity?_quantity hending

-- ---------------------------------------------------------------------------
-- Messages
-- ---------------------------------------------------------------------------

variable {message suffix : String} {ms : Nat}

theorem read?_number (h : message.toList = Text.numeral n) :
    read? message = some ⟨n * 1000, false, []⟩ := by
  have hrun : Text.digitRun (Text.numeral n ++ []) = (Text.numeral n, []) :=
    Text.digitRun_of_digits (fun _ => Text.isDigit_of_mem_numeral) nofun
  rw [List.append_nil] at hrun
  simp [read?, h, hrun, Text.numeral_ne_nil, Text.ofDigitChars_numeral]

theorem read?_quantities (h : message.toList = quantity n unit ++ rest) {span : Nat}
    (hread : quantities? [.hours, .minutes, .seconds] message.toList = some (span, ending)) :
    read? message = some ⟨span, true, ending⟩ := by
  rw [h] at hread
  simp only [read?, h, digitRun_quantity, hread]
  exact if_neg (by simp [counted])

theorem read?_seconds (h : message.toList = quantity n .seconds ++ ending)
    (hending : ending.head? ≠ some ',') : read? message = some ⟨n * 1000, true, ending⟩ := by
  refine read?_quantities h ?_
  have hhours : quantity? .hours message.toList = none := by
    rw [h]
    exact quantity?_other (by decide)
  have hminutes : quantity? .minutes message.toList = none := by
    rw [h]
    exact quantity?_other (by decide)
  have hseconds : quantity? .seconds message.toList = some (n, ending) := by
    rw [h]
    exact quantity?_quantity
  have hlast : quantities? [.seconds] message.toList = some (n * 1000, ending) :=
    quantities?_last hseconds hending
  rw [quantities?, hhours]
  rw [quantities?, hminutes]
  exact hlast

theorem toList_quantity (n : Nat) (unit : TimeUnit) :
    (Phrasing.quantity n (noun unit)).toList = quantity n unit := by
  have hplural : (Phrasing.plural n).toList = if n = 1 then [] else ['s'] := by
    unfold Phrasing.plural
    split <;> rfl
  rw [Phrasing.toList_quantity, hplural]
  rfl

theorem toList_seconds (h : n ≠ 1) :
    (Phrasing.number n ++ " seconds").toList = quantity n .seconds ++ [] := by
  simp [Phrasing.number, quantity, counted, noun, h]

def clock (ms : Nat) : List (TimeUnit × Nat) :=
  [(.hours, ms / 3600000), (.minutes, ms % 3600000 / 60000),
    (.seconds, Phrasing.roundSeconds (ms % 60000))]

theorem sum_clock : sum (clock ms) = Phrasing.roundSeconds ms * 1000 := by
  have hminutes : ms / 3600000 * 60 + ms % 3600000 / 60000 = ms / 60000 := by omega
  have hseconds : Phrasing.roundSeconds ms =
      ms / 60000 * 60 + Phrasing.roundSeconds (ms % 60000) := by
    simp only [Phrasing.roundSeconds]
    omega
  have hhour : TimeUnit.hours.milliseconds = 3600000 := rfl
  have hminute : TimeUnit.minutes.milliseconds = 60000 := rfl
  have hsecond : TimeUnit.seconds.milliseconds = 1000 := rfl
  rw [clock, sum_cons, sum_cons, sum_cons, sum_nil, hhour, hminute, hsecond]
  omega

theorem listed_append (amounts more : List (TimeUnit × Nat)) :
    listed (amounts ++ more) = listed amounts ++ listed more := by
  simp [listed]

theorem toList_clockParts : (Phrasing.clockParts ms).map String.toList = listed (clock ms) := by
  have hpart (n : Nat) (unit : TimeUnit) :
      (if n > 0 then [Phrasing.quantity n (noun unit)] else []).map String.toList =
        listed [(unit, n)] := by
    by_cases hn : 0 < n
    · simp [listed, hn, toList_quantity]
    · simp [listed, hn]
  have hclock : clock ms = ([(.hours, ms / 3600000)] ++ [(.minutes, ms % 3600000 / 60000)]) ++
      [(.seconds, Phrasing.roundSeconds (ms % 60000))] := rfl
  rw [hclock, listed_append, listed_append, ← hpart, ← hpart, ← hpart]
  simp only [Phrasing.clockParts, List.map_append, noun]

theorem timeMessage_forced (h : ms < Phrasing.secondsOnlyBelow) :
    (Phrasing.timeMessage ms suffix true).toList =
      quantity (Phrasing.roundSeconds ms) .seconds ++ suffix.toList := by
  have hquantity := toList_quantity (Phrasing.roundSeconds ms) .seconds
  rw [← hquantity, ← String.toList_append]
  simp only [Phrasing.timeMessage, if_pos h]
  rfl

theorem timeMessage_seconds (h : ms < Phrasing.secondsOnlyBelow) (hbare : Phrasing.bareUpTo < ms) :
    (Phrasing.timeMessage ms suffix false).toList =
      quantity (Phrasing.roundSeconds ms) .seconds ++ [] := by
  have hmany : Phrasing.roundSeconds ms ≠ 1 := by
    simp only [Phrasing.roundSeconds, Phrasing.bareUpTo] at hbare ⊢
    omega
  rw [← toList_seconds hmany]
  simp only [Phrasing.timeMessage, if_pos h, if_pos hbare]
  rfl

theorem timeMessage_bare (h : ms < Phrasing.secondsOnlyBelow) (hbare : ¬ Phrasing.bareUpTo < ms) :
    (Phrasing.timeMessage ms suffix false).toList = Text.numeral (Phrasing.roundSeconds ms) := by
  simp only [Phrasing.timeMessage, if_pos h, if_neg hbare, Bool.false_eq_true, if_false,
    Phrasing.number, String.toList_ofList]

theorem timeMessage_clock (h : ¬ ms < Phrasing.secondsOnlyBelow) (force : Bool) :
    (Phrasing.timeMessage ms suffix force).toList = joined (clock ms) ++ suffix.toList := by
  simp only [Phrasing.timeMessage, if_neg h, String.toList_append, String.toList_intercalate,
    toList_clockParts]
  rfl

theorem clock_positive (h : ¬ ms < Phrasing.secondsOnlyBelow) :
    ∃ amount ∈ clock ms, 0 < amount.2 := by
  have hlong : 20000 ≤ ms := Nat.le_of_not_lt h
  by_cases hhours : 0 < ms / 3600000
  · exact ⟨_, List.mem_cons_self, hhours⟩
  · by_cases hminutes : 0 < ms % 3600000 / 60000
    · exact ⟨_, List.mem_cons_of_mem _ List.mem_cons_self, hminutes⟩
    · refine ⟨(.seconds, Phrasing.roundSeconds (ms % 60000)), by simp [clock], ?_⟩
      simp only [Phrasing.roundSeconds]
      omega

/-- What is read back from the message for a span is the span to the nearest
second. Short spans lose the ending, the shortest the unit too, unless the unit
is forced. -/
theorem read?_timeMessage (hsuffix : suffix.toList.head? ≠ some ',') (ms : Nat) (force : Bool) :
    read? (Phrasing.timeMessage ms suffix force) =
      some ⟨Phrasing.roundSeconds ms * 1000, force || decide (Phrasing.bareUpTo < ms),
        if ms < Phrasing.secondsOnlyBelow ∧ force = false then [] else suffix.toList⟩ := by
  by_cases hshort : ms < Phrasing.secondsOnlyBelow
  · cases force with
    | true =>
      rw [read?_seconds (timeMessage_forced hshort) hsuffix]
      simp
    | false =>
      by_cases hbare : Phrasing.bareUpTo < ms
      · rw [read?_seconds (timeMessage_seconds hshort hbare) nofun]
        simp [hshort, hbare]
      · rw [read?_number (timeMessage_bare hshort hbare)]
        simp [hshort, hbare]
  · have hbare : Phrasing.bareUpTo < ms :=
      Nat.lt_of_lt_of_le (by decide) (Nat.le_of_not_lt hshort)
    have hunits : ((clock ms).map Prod.fst).Nodup := by simp [clock]
    have hread := quantities?_joined hunits (clock_positive hshort) hsuffix
    rw [sum_clock, ← timeMessage_clock hshort force] at hread
    obtain ⟨amount, -, more, hjoined⟩ := joined_eq (clock_positive hshort)
    have htext : (Phrasing.timeMessage ms suffix force).toList = _ := timeMessage_clock hshort force
    rw [hjoined, List.append_assoc] at htext
    rw [read?_quantities htext hread]
    simp [hshort, hbare]

end

end Spoken

end SpokenCountdown
