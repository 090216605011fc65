import SpokenCountdown.Binary
import SpokenCountdown.Duration

/-!
# Settings of a countdown

Everything a user can choose for one countdown, with the defaults that stand in
for what was left out.
-/

namespace SpokenCountdown

/-- The family of directives whose announcements win when two are too close. -/
inductive Priority where
  | fraction
  | time
  /-- Directives win in the order they were written. -/
  | order
  deriving DecidableEq, Repr

namespace Priority

def name : Priority → String
  | .fraction => "fraction"
  | .time => "time"
  | .order => "order"

def ofName? : String → Option Priority
  | "fraction" => some .fraction
  | "time" => some .time
  | "order" => some .order
  | _ => none

/-- A typed priority may have blanks around it and letters of either case; the
normalized text is the error. -/
def ofText (s : String) : Except String Priority :=
  let t := String.ofList (Text.lowercase (Text.trimChars s.toList))
  match ofName? t with
  | some p => .ok p
  | none => .error t

def unknownMessage (normalized : String) : String :=
  s!"unknown priority '{normalized}'"

end Priority

inductive SayMode where
  /-- A non-empty list of items replaces what the spec produces. -/
  | override
  /-- Both are reconciled together, the items first. -/
  | merge
  deriving DecidableEq, Repr

namespace SayMode

def name : SayMode → String
  | .override => "override"
  | .merge => "merge"

def ofName? : String → Option SayMode
  | "override" => some .override
  | "merge" => some .merge
  | _ => none

end SayMode

structure SayItem where
  /-- Milliseconds remaining when the message is spoken. -/
  offset : Nat
  message : String
  rate : Option Binary := none
  deriving DecidableEq, Repr

structure Phrases where
  /-- Ends announcements measured from the start. -/
  gone : String := " gone"
  /-- Ends announcements measured from the end. -/
  toGo : String := " to go"
  /-- Spoken at the midpoint. -/
  halfWay : String := "Half way"
  deriving DecidableEq, Repr

structure Settings where
  duration : DurationInput := .text "03:00"
  /-- The spec: directives between words that are ignored. -/
  say : String := "1/2 30s last20 last15 allLast10"
  sayItems : List SayItem := []
  sayMode : SayMode := .override
  priority : Priority := .fraction
  sayStart : Bool := false
  sayEnd : Bool := true
  endChime : Bool := true
  startMessage : String := "Ready. Set. Go!"
  endMessage : String := "Time's up!"
  /-- Milliseconds from the end to the next start, if it starts again by itself. -/
  autoRestart : Option Nat := none
  allowPause : Bool := true
  phrases : Phrases := {}
  tick : Nat := 50
  /-- Announcements are spoken this many milliseconds before they are due. -/
  earlyFire : Nat := 800
  /-- The longest wait for a start or end message. -/
  speechTimeout : Nat := 15000
  deriving DecidableEq, Repr

end SpokenCountdown
