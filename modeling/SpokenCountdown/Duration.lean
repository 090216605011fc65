import SpokenCountdown.Text.Blank
import SpokenCountdown.Text.Numeral

/-!
# Durations and clock labels

A duration is given as a number (seconds below 10 000, milliseconds from there
on) or as text: bare seconds, `MM:SS` or `HH:MM:SS`. It is positive and capped
at one day. A clock label shows whole seconds without leading zero fields.
-/

namespace SpokenCountdown

inductive DurationInput where
  | number (n : Nat)
  | text (s : String)
  deriving DecidableEq, Repr

namespace Duration

/-- Numbers below this are seconds, from here on milliseconds. -/
def secondsThreshold : Nat := 10000

/-- One day in milliseconds, the longest countdown. -/
def longest : Nat := 86400000

inductive Fault where
  | zero
  | empty
  | notNumeral
  | tooManyFields
  | fieldWidth
  | fieldRange
  deriving DecidableEq, Repr

def Fault.reason : Fault → String
  | .zero => "duration must be greater than zero"
  | .empty => "empty duration"
  | .notNumeral => "not a number"
  | .tooManyFields => "expected HH:MM:SS, MM:SS or SS"
  | .fieldWidth => "fields must be 1-2 digits"
  | .fieldRange => "minutes and seconds must be between 0 and 59"

/-- A clock field: one or two digits. -/
def field? (cs : List Char) : Option Nat :=
  if cs.length ≤ 2 then Text.readNumeral 100 cs else none

def ofClock (hours minutes seconds : Nat) : Nat :=
  hours * 3600000 + minutes * 60000 + seconds * 1000

/-- Milliseconds of the fields of a text, before the zero check and the cap. -/
def ofFields : List (List Char) → Except Fault Nat
  | [seconds] =>
    match Text.readNumeral Text.word64 seconds with
    | some n => .ok (n * 1000)
    | none => .error .notNumeral
  | [minutes, seconds] => clock ['0'] minutes seconds
  | [hours, minutes, seconds] => clock hours minutes seconds
  | _ => .error .tooManyFields
where
  clock (hours minutes seconds : List Char) : Except Fault Nat :=
    match field? hours, field? minutes, field? seconds with
    | some h, some m, some s =>
      if m > 59 ∨ s > 59 then .error .fieldRange else .ok (ofClock h m s)
    | _, _, _ => .error .fieldWidth

def ofText (s : String) : Except Fault Nat :=
  match Text.trimChars s.toList with
  | [] => .error .empty
  | cs => ofFields (cs.splitOn ':')

def ofNumber (n : Nat) : Nat :=
  if n < secondsThreshold then n * 1000 else n

/-- Remaining time as `S`, `M:SS` or `H:MM:SS`. -/
def clockLabel (ms : Nat) : String :=
  let hours := ms / 3600000
  let minutes := ms % 3600000 / 60000
  let seconds := ms % 60000 / 1000
  String.ofList <|
    if hours > 0 then
      Text.numeral hours ++ ':' :: Text.twoDigits minutes ++ ':' :: Text.twoDigits seconds
    else if minutes > 0 then
      Text.numeral minutes ++ ':' :: Text.twoDigits seconds
    else
      Text.numeral seconds

end Duration

namespace DurationInput

def shown : DurationInput → String
  | .number n => String.ofList (Text.numeral n)
  | .text s => s

def milliseconds (input : DurationInput) : Except Duration.Fault Nat := do
  let ms ← match input with
    | .number n => pure (Duration.ofNumber n)
    | .text s => Duration.ofText s
  if ms = 0 then throw .zero else pure (min ms Duration.longest)

/-- A duration typed on the command line: a numeral is a number, anything else a text. -/
def ofArgument (s : String) : DurationInput :=
  let cs := Text.trimChars s.toList
  match Text.readSignedNumeral Text.word64 cs with
  | some n => .number n
  | none => .text (String.ofList cs)

end DurationInput

end SpokenCountdown
