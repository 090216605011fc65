/-!
# Binary floating-point numbers

Signed numbers `significand * 2 ^ exponent` of a fixed precision, the two
infinities and not-a-number. Every operation computes the exact ratio and
rounds it once, to the nearest number of the format, a half to the even
significand.
-/

namespace SpokenCountdown

/-- A format: significands have `precision` bits, exponents lie between
`minExponent` and `maxExponent`. -/
structure Binary.Format where
  precision : Nat
  minExponent : Int
  maxExponent : Int

def Binary.Format.single : Binary.Format := ⟨24, -149, 104⟩

def Binary.Format.double : Binary.Format := ⟨53, -1074, 971⟩

/-- A number that rounding produced has the least exponent or a significand of
full length, so equal numbers are equal terms; zero has the exponent 0. -/
inductive Binary where
  | nan (negative : Bool)
  | infinite (negative : Bool)
  | finite (negative : Bool) (significand : Nat) (exponent : Int)
  deriving DecidableEq, Repr, Inhabited

namespace Binary

/-- The quotient rounded to the nearest integer, a half to the even one. -/
def roundQuotient (num den : Nat) : Nat :=
  let q := num / den
  let r := num % den
  if 2 * r < den then q
  else if den < 2 * r then q + 1
  else if q % 2 = 0 then q else q + 1

/-- The quotient rounded to the nearest integer, a half upwards. -/
def roundQuotientUp (num den : Nat) : Nat :=
  (2 * num + den) / (2 * den)

/-- `num * 2 ^ e` and `den` as a ratio of two naturals, `e` of either sign. -/
def scaled (num den : Nat) (e : Int) : Nat × Nat :=
  (num * Nat.pow 2 e.toNat, den * Nat.pow 2 (-e).toNat)

/-- The greatest `e` with `2 ^ e ≤ num / den`. -/
def floorLog (num den : Nat) : Int :=
  let e : Int := num.log2 - den.log2
  let (n, d) := scaled num den (-e)
  if d ≤ n then e else e - 1

/-- The number of the format nearest to `num / den`. -/
def ofRatio (format : Format) (negative : Bool) (num den : Nat) : Binary :=
  if num = 0 ∨ den = 0 then
    .finite negative 0 0
  else
    let exponent := max format.minExponent (floorLog num den - (format.precision - 1 : Nat))
    let (n, d) := scaled num den (-exponent)
    let significand := roundQuotient n d
    let (significand, exponent) :=
      if significand = Nat.pow 2 format.precision then
        (Nat.pow 2 (format.precision - 1), exponent + 1)
      else (significand, exponent)
    if significand = 0 then .finite negative 0 0
    else if format.maxExponent < exponent then .infinite negative
    else .finite negative significand exponent

def ofNat (format : Format) (n : Nat) : Binary :=
  ofRatio format false n 1

/-- The number nearest to `digits * 10 ^ exponent`. Exponents that are out of
every format's reach are decided by size alone. -/
def ofDecimal (format : Format) (negative : Bool) (digits : Nat) (exponent : Int) : Binary :=
  let size := exponent + (Nat.toDigits 10 digits).length
  if digits = 0 ∨ size < -400 then .finite negative 0 0
  else if 400 < size then .infinite negative
  else
    ofRatio format negative (digits * Nat.pow 10 exponent.toNat) (Nat.pow 10 (-exponent).toNat)

def convert (format : Format) : Binary → Binary
  | .finite negative significand exponent =>
    let (n, d) := scaled significand 1 exponent
    ofRatio format negative n d
  | x => x

/-- The ratio of two naturals that a finite number stands for, without its sign. -/
def magnitude : Binary → Nat × Nat
  | .finite _ significand exponent => scaled significand 1 exponent
  | _ => (0, 1)

def isNegative : Binary → Bool
  | .nan negative | .infinite negative | .finite negative _ _ => negative

def isFinite : Binary → Bool
  | .finite .. => true
  | _ => false

def isPositive : Binary → Bool
  | .finite false significand _ => significand != 0
  | _ => false

/-- The integer nearest to a finite number's magnitude, a half upwards. -/
def roundedMagnitude (x : Binary) : Nat :=
  roundQuotientUp x.magnitude.1 x.magnitude.2

/-- Quotient of two finite numbers above zero. -/
def div (format : Format) (x y : Binary) : Binary :=
  let (a, b) := x.magnitude
  let (c, d) := y.magnitude
  ofRatio format (x.isNegative != y.isNegative) (a * d) (b * c)

def mul (format : Format) (x y : Binary) : Binary :=
  let negative := x.isNegative != y.isNegative
  match x, y with
  | .nan _, _ | _, .nan _ => .nan false
  | .infinite _, .finite _ 0 _ | .finite _ 0 _, .infinite _ => .nan false
  | .infinite _, _ | _, .infinite _ => .infinite negative
  | .finite .., .finite .. =>
    let (a, b) := x.magnitude
    let (c, d) := y.magnitude
    ofRatio format negative (a * c) (b * d)

end Binary

end SpokenCountdown
