import SpokenCountdown.Announcement
import SpokenCountdown.Text.Blank
import SpokenCountdown.Text.Numeral

/-!
# Phrasing

The spoken form of spans of time and of fractions of the total, and the rate at
which a message is spoken.
-/

namespace SpokenCountdown.Phrasing

def number (n : Nat) : String :=
  String.ofList (Text.numeral n)

def plural (n : Nat) : String :=
  if n = 1 then "" else "s"

/-- `n` things of a kind: `1 hour`, `2 hours`. -/
def quantity (n : Nat) (noun : String) : String :=
  s!"{number n} {noun}{plural n}"

theorem toList_quantity (n : Nat) (noun : String) :
    (quantity n noun).toList = Text.numeral n ++ ' ' :: (noun.toList ++ (plural n).toList) := by
  have hshown (s : String) : toString s = s := rfl
  simp [quantity, number, hshown]

/-- Milliseconds to seconds, a half upwards. -/
def roundSeconds (ms : Nat) : Nat :=
  (ms + 500) / 1000

def secondsOnlyBelow : Nat := 20000

def bareUpTo : Nat := 10000

def clockParts (ms : Nat) : List String :=
  let part (n : Nat) (noun : String) := if n > 0 then [quantity n noun] else []
  part (ms / 3600000) "hour" ++ part (ms % 3600000 / 60000) "minute" ++
    part (roundSeconds (ms % 60000)) "second"

/-- A span of time as speech. Short spans are a bare number or a number of
seconds without a suffix, unless the unit is forced. -/
def timeMessage (ms : Nat) (suffix : String) (forceUnit : Bool) : String :=
  if ms < secondsOnlyBelow then
    let seconds := roundSeconds ms
    if forceUnit then quantity seconds "second" ++ suffix
    else if bareUpTo < ms then s!"{number seconds} seconds"
    else number seconds
  else
    ", ".intercalate (clockParts ms) ++ suffix

def fractionNoun : Nat → String
  | 3 => "third"
  | 4 => "quarter"
  | 5 => "fifth"
  | 6 => "sixth"
  | 7 => "seventh"
  | 8 => "eighth"
  | 9 => "ninth"
  | 10 => "tenth"
  | _ => "part"

/-- A fraction in lowest terms as speech; nothing for one half, which has a
phrase of its own. -/
def fractionMessage (numerator denominator : Nat) : Option String :=
  let divisor := max (Nat.gcd numerator denominator) 1
  let n := numerator / divisor
  let d := denominator / divisor
  if d = 2 then none else some (quantity n (fractionNoun d))

/-- Bare numbers from 1 to 19 are spoken fast. -/
def rateFor (message : String) : Binary :=
  match Text.readSignedNumeral Text.word32 (Text.trimChars message.toList) with
  | some n => if 1 ≤ n ∧ n ≤ 19 then Rate.fast else Rate.normal
  | none => Rate.normal

def announcement (offset : Nat) (message : String) : Announcement :=
  ⟨offset, message, rateFor message⟩

end SpokenCountdown.Phrasing
