import SpokenCountdown.Binary
import SpokenCountdown.Text.Numeral

/-!
# Decimal texts of binary numbers

The shortest text of a number has the fewest digits that still read back as the
number; of several with that length it is the nearest, and of two equally near
the larger. Texts are positional, without an exponent.
-/

namespace SpokenCountdown

/-- `coefficient * 10 ^ exponent`. -/
structure Decimal where
  coefficient : Nat
  exponent : Int
  deriving DecidableEq, Repr

namespace Decimal

def strip (d : Decimal) : Decimal :=
  if d.coefficient ≠ 0 ∧ d.coefficient % 10 = 0 then
    strip ⟨d.coefficient / 10, d.exponent + 1⟩
  else d
termination_by d.coefficient
decreasing_by omega

/-- Positional notation: whole digits, then a point and decimals if there are any. -/
def positional (d : Decimal) : List Char :=
  let digits := Text.numeral d.coefficient
  if d.coefficient = 0 then ['0']
  else if 0 ≤ d.exponent then digits ++ List.replicate d.exponent.toNat '0'
  else
    let places := (-d.exponent).toNat
    if places < digits.length then
      digits.take (digits.length - places) ++ '.' :: digits.drop (digits.length - places)
    else
      '0' :: '.' :: List.replicate (places - digits.length) '0' ++ digits

def isWhole (d : Decimal) : Bool :=
  d.coefficient = 0 || 0 ≤ d.exponent

end Decimal

namespace Binary

/-- `significand * 2 ^ exponent` as a natural over `10 ^ places`, exactly, where
`places` makes the value whole. -/
def wholeAt (places significand : Nat) (exponent : Int) : Nat :=
  significand * Nat.pow 10 places * Nat.pow 2 exponent.toNat / Nat.pow 2 (-exponent).toNat

/-- The decimals that round to a finite number above zero, as numerators over
`10 ^ places`: the least, the number itself, the greatest, and whether the two
ends round to it as well. -/
structure Interval where
  places : Nat
  least : Nat
  value : Nat
  greatest : Nat
  closed : Bool

def interval (format : Format) (significand : Nat) (exponent : Int) : Interval :=
  let quarter := exponent - 2
  let places := (-quarter).toNat
  let below :=
    if significand = Nat.pow 2 (format.precision - 1) ∧ format.minExponent < exponent then 1 else 2
  { places
    least := wholeAt places (4 * significand - below) quarter
    value := wholeAt places (4 * significand) quarter
    greatest := wholeAt places (4 * significand + 2) quarter
    closed := significand % 2 = 0 }

def Interval.holds (i : Interval) (x : Nat) : Bool :=
  if i.closed then i.least ≤ x && x ≤ i.greatest else i.least < x && x < i.greatest

/-- The point of the grid `unit * ℕ` nearest to the value among those of the
interval, if it has any: one of the value's two neighbours. -/
def Interval.nearest? (i : Interval) (unit : Nat) : Option Nat :=
  let low := i.value / unit
  let high := low + 1
  match i.holds (low * unit), i.holds (high * unit) with
  | true, true => some (if i.value - low * unit < high * unit - i.value then low else high)
  | true, false => some low
  | false, true => some high
  | false, false => none

/-- Grids from the coarsest to the finest; the last holds the value itself. -/
def Interval.shortest (i : Interval) : Decimal :=
  let length := (Text.numeral i.value).length
  let found := (List.range length).findSome? fun n =>
    let zeros := length - 1 - n
    (i.nearest? (Nat.pow 10 zeros)).map fun c => (⟨c, zeros - i.places⟩ : Decimal)
  (found.getD ⟨i.value, -i.places⟩).strip

/-- The shortest decimal that reads back as the magnitude of a finite number. -/
def shortest (format : Format) (significand : Nat) (exponent : Int) : Decimal :=
  if significand = 0 then ⟨0, 0⟩ else (interval format significand exponent).shortest

/-- The shortest text, for instance `1`, `-0.5`, `inf`, `NaN`. -/
def text (format : Format) : Binary → String
  | .nan _ => "NaN"
  | .infinite negative => if negative then "-inf" else "inf"
  | .finite negative significand exponent =>
    let digits := (shortest format significand exponent).positional
    String.ofList (if negative then '-' :: digits else digits)

/-- The exact value of a number rounded to one decimal, a half to the even digit. -/
def oneDecimal (x : Binary) : String :=
  let tenths := roundQuotient (10 * x.magnitude.1) x.magnitude.2
  String.ofList (Text.numeral (tenths / 10) ++ '.' :: Text.numeral (tenths % 10))

end Binary

end SpokenCountdown
