import SpokenCountdown.Expansion
import SpokenCountdown.Proofs.Checked

/-!
# Expansion on machine words

The same expansion, step by step with checked arithmetic. A loop that is not over
after the rounds it is given is a fault as well. `Proofs/Expansion/Safety` shows
which directives are expanded without one.
-/

namespace SpokenCountdown

namespace Words

open Phrasing (announcement number quantity fractionNoun secondsOnlyBelow bareUpTo)
open Expansion (halfWay collapse)

-- ---------------------------------------------------------------------------
-- Phrasing
-- ---------------------------------------------------------------------------

def roundSeconds (ms : Nat) : Checked Nat := do
  let raised ← add ms 500
  div raised 1000

def takeUnits (ms unit : Nat) : Checked (Nat × Nat) := do
  let n ← div ms unit
  if n > 0 then do
    let taken ← mul n unit
    let rest ← sub ms taken
    pure (n, rest)
  else
    pure (n, ms)

def timeMessage (ms : Nat) (suffix : String) (forceUnit : Bool) : Checked String :=
  if ms < secondsOnlyBelow then do
    let seconds ← roundSeconds ms
    pure <|
      if forceUnit then quantity seconds "second" ++ suffix
      else if bareUpTo < ms then s!"{number seconds} seconds"
      else number seconds
  else do
    let (hours, rest) ← takeUnits ms 3600000
    let (minutes, rest) ← takeUnits rest 60000
    let seconds ← roundSeconds rest
    let part (n : Nat) (noun : String) := if n > 0 then [quantity n noun] else []
    pure (", ".intercalate (part hours "hour" ++ part minutes "minute" ++ part seconds "second") ++
      suffix)

/-- Euclid's algorithm, never zero. -/
def divisor : Nat → Nat → Nat → Checked Nat
  | 0, _, _ => .error .unfinished
  | rounds + 1, a, b =>
    if b = 0 then pure (max a 1)
    else do
      let rest ← mod a b
      divisor rounds b rest

def fractionMessage (numerator denominator : Nat) : Checked (Option String) := do
  let divisor ← divisor (denominator + 1) numerator denominator
  let n ← div numerator divisor
  let d ← div denominator divisor
  pure (if d = 2 then none else some (quantity n (fractionNoun d)))

-- ---------------------------------------------------------------------------
-- Times
-- ---------------------------------------------------------------------------

/-- A span from the start that is longer than the countdown is no fault. -/
def anchored (span : Nat) (anchor : Anchor) (total : Nat) (phrases : Phrases) :
    Checked (Option Announcement) :=
  match anchor with
  | .first =>
    if span ≤ total then do
      let offset ← sub total span
      let message ← timeMessage span phrases.gone true
      pure (some (announcement offset message))
    else
      pure none
  | .last | .both => do
    let message ← timeMessage span phrases.toGo false
    pure (some (announcement span message))

def multiples (span count : Nat) (anchor : Anchor) (total : Nat) (phrases : Phrases) :
    Checked (List Announcement) := do
  let found ← (List.range count).mapM fun k => do
    let multiple ← mul (k + 1) span
    anchored multiple anchor total phrases
  pure (found.filterMap id)

/-- The pairs from `span` on. The span grows by the cadence in every round, and
the last round finds it beyond the midpoint. -/
def pairs (cadence total : Nat) (phrases : Phrases) : Nat → Nat → Checked (List Announcement)
  | 0, _ => .error .unfinished
  | rounds + 1, span =>
    if span ≤ total / 2 then do
      let toGo ← timeMessage span phrases.toGo false
      let offset ← sub total span
      let gone ← timeMessage span phrases.gone false
      let next ← add span cadence
      let rest ← pairs cadence total phrases rounds next
      pure (announcement span toGo :: announcement offset gone :: rest)
    else
      pure []

def times (rounds : Nat) (d : Directive) (amount : Nat) (unit : TimeUnit) (total : Nat)
    (phrases : Phrases) : Checked (List Announcement) :=
  let interval := mulSaturating amount unit.milliseconds
  match d.quantifier, d.anchor with
  | .single, anchor => do
    let fitting ← div total interval
    let most ← add fitting 1
    multiples interval (min d.count most) anchor total phrases
  | .all, .both => pairs interval total phrases rounds interval
  | .every, .both =>
    let cadence := mulSaturating interval d.count
    pairs cadence total phrases rounds cadence
  | .all, anchor => do
    let most ← div total unit.milliseconds
    let found ← multiples unit.milliseconds (min amount most) anchor total phrases
    pure found.reverse
  | .every, anchor => do
    let most ← div total interval
    let count := (d.multiplier.map (min · most)).getD most
    let found ← multiples interval count anchor total phrases
    pure found.reverse

-- ---------------------------------------------------------------------------
-- Fractions
-- ---------------------------------------------------------------------------

section
variable (denominator total : Nat) (phrases : Phrases) (k : Nat)

def mark : Checked Nat := do
  let product ← mul total k
  div product denominator

def message (suffix : String) : Checked String := do
  let text ← fractionMessage k denominator
  pure <|
    match text with
    | some text => text ++ suffix
    | none => phrases.halfWay

def toGo : Checked Announcement := do
  let offset ← mark denominator total k
  let text ← message denominator phrases k phrases.toGo
  pure (announcement offset text)

def gone : Checked Announcement := do
  let passed ← mark denominator total k
  let offset ← sub total passed
  let text ← message denominator phrases k phrases.gone
  pure (announcement offset text)

end

def fractions (d : Directive) (numerator : Option Nat) (denominator total : Nat)
    (phrases : Phrases) : Checked (List Announcement) :=
  if denominator = 2 then pure [halfWay total phrases]
  else do
    let marks ← sub denominator 1
    let wanted := d.multiplier <|> numerator.filter (1 < ·)
    let count := (wanted.map (min · marks)).getD marks
    let found ← match d.anchor with
      | .both => do
        let half ← div denominator 2
        let found ← (List.range (min count half)).mapM fun k => do
          let left ← toGo denominator total phrases (k + 1)
          let passed ← gone denominator total phrases (k + 1)
          pure [left, passed]
        pure found.flatten
      | .last => (List.range count).mapM fun k => toGo denominator total phrases (k + 1)
      | .first => (List.range count).mapM fun k => gone denominator total phrases (k + 1)
    pure (found.map (collapse total phrases))

/-- The announcements of a directive, if the pairs are over within `rounds`. -/
def expand (rounds : Nat) (d : Directive) (total : Nat) (phrases : Phrases) :
    Checked (List Announcement) :=
  if total = 0 then pure []
  else match d.form with
    | .time amount unit => times rounds d amount unit total phrases
    | .fraction numerator denominator => fractions d numerator denominator total phrases

end Words

end SpokenCountdown
