/-!
# Directives

One token of a spec, parsed: what is announced (times or fractions of the
total), how often, and from which end of the countdown it is measured.
-/

namespace SpokenCountdown

inductive Quantifier where
  /-- Once, or as often as the multiplier says. -/
  | single
  /-- At every unit step. -/
  | all
  /-- At a fixed cadence. -/
  | every
  deriving DecidableEq, Repr

inductive Anchor where
  /-- Measured from both ends. -/
  | both
  /-- Measured from the start. -/
  | first
  /-- Measured from the end. -/
  | last
  deriving DecidableEq, Repr

inductive TimeUnit where
  | seconds
  | minutes
  | hours
  deriving DecidableEq, Repr

def TimeUnit.milliseconds : TimeUnit → Nat
  | .seconds => 1000
  | .minutes => 60000
  | .hours => 3600000

inductive Form where
  | time (amount : Nat) (unit : TimeUnit)
  | fraction (numerator : Option Nat) (denominator : Nat)
  deriving DecidableEq, Repr

structure Directive where
  quantifier : Quantifier
  anchor : Anchor
  /-- The written repeat count. -/
  multiplier : Option Nat
  form : Form
  /-- The token as it was written. -/
  raw : String
  deriving DecidableEq, Repr

namespace Directive

def isFraction (d : Directive) : Bool :=
  match d.form with
  | .fraction .. => true
  | .time .. => false

/-- The repeat count, one when none was written. -/
def count (d : Directive) : Nat :=
  d.multiplier.getD 1

end Directive

end SpokenCountdown
