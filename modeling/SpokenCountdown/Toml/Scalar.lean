import SpokenCountdown.Text.Numeral
import SpokenCountdown.Toml.Value

/-!
# Scalars without quotes

Booleans, integers, floats and dates. Digits may be grouped by single
underscores between two of them; a decimal integer has no leading zeros. What
has the form of a number but stands for none is kept as a numeral.
-/

namespace SpokenCountdown.Toml.Scalar

def grouped? (isDigit : Char → Bool) : List Char → Option (List Char)
  | [] => none
  | [c] => if isDigit c then some [c] else none
  | c :: '_' :: rest =>
    if isDigit c then (grouped? isDigit rest).map (c :: ·) else none
  | c :: d :: rest =>
    if isDigit c then (grouped? isDigit (d :: rest)).map (c :: ·) else none

def isHexDigit (c : Char) : Bool :=
  c.isDigit || ('a' ≤ c && c ≤ 'f') || ('A' ≤ c && c ≤ 'F')

def isOctalDigit (c : Char) : Bool :=
  '0' ≤ c && c ≤ '7'

def isBinaryDigit (c : Char) : Bool :=
  c == '0' || c == '1'

def digitValue (c : Char) : Nat :=
  if c.isDigit then c.toNat - '0'.toNat
  else if 'a' ≤ c then c.toNat - 'a'.toNat + 10
  else c.toNat - 'A'.toNat + 10

def ofDigits (base : Nat) (digits : List Char) : Nat :=
  digits.foldl (fun n c => n * base + digitValue c) 0

/-- A sign, if there is one, and the rest. -/
def sign : List Char → Bool × List Char
  | '-' :: rest => (true, rest)
  | '+' :: rest => (false, rest)
  | cs => (false, cs)

/-- What stands before the digits of a decimal number: a sign, and behind a sign
perhaps an underscore. -/
structure Front where
  negative : Bool
  underscore : Bool

def front : List Char → Front × List Char
  | '-' :: '_' :: rest => (⟨true, true⟩, rest)
  | '+' :: '_' :: rest => (⟨false, true⟩, rest)
  | cs => (⟨(sign cs).1, false⟩, (sign cs).2)

/-- Number of values of a 128-bit word. -/
abbrev word128 : Nat := Text.word64 * Text.word64

/-- The integer that a word stands for. Integers have at most 128 bits, with or
without a sign. -/
def integer (word : List Char) (n : Int) : Value :=
  if -(word128 / 2) ≤ n ∧ n < word128 then .integer n else .numeral (String.ofList word)

/-- An integer of a base other than ten, given the digits of its word. -/
def ofBase? (base : Nat) (isDigit : Char → Bool) (word : List Char) : List Char → Option Value
  | [] => some (.numeral (String.ofList word))
  | cs => (grouped? isDigit cs).map fun digits => integer word (ofDigits base digits)

-- ---------------------------------------------------------------------------
-- Decimal numbers
-- ---------------------------------------------------------------------------

def isFloatMark (c : Char) : Bool :=
  c == '.' || c == 'e' || c == 'E'

/-- Whether each underscore stands between two digits of base sixteen, the first
character aside. -/
def areBetweenDigits : List Char → Bool
  | [] => true
  | [c] => c != '_'
  | a :: b :: rest =>
    (a != '_' || isHexDigit b) && (b != '_' || isHexDigit a) && areBetweenDigits (b :: rest)

/-- Whether a text has the form of a decimal integer behind its front. Up to the
first underscore there are digits, the first of several not zero; behind an
underscore only the characters next to underscores count. -/
def isWhole (underscore : Bool) (cs : List Char) : Bool :=
  let (digits, rest) := cs.span Char.isDigit
  areBetweenDigits cs && !cs.any isFloatMark &&
    if underscore then cs.head?.any isHexDigit
    else !digits.isEmpty && (rest.isEmpty || rest.head? == some '_') &&
      (digits.head? != some '0' || cs.length == 1)

def decimalInteger? (word : List Char) : Option Value :=
  let (front, cs) := front word
  if isWhole front.underscore cs then
    let digits := cs.filter (· != '_')
    if digits.all Char.isDigit then
      let n : Int := ofDigits 10 digits
      some (integer word (if front.negative then -n else n))
    else some (.numeral (String.ofList word))
  else none

/-- Digits of a float up to its fraction or exponent. The first of several is
not zero, unless there is an underscore before them. -/
def wholeDigits? (underscore : Bool) (cs : List Char) : Option (List Char) :=
  match grouped? Char.isDigit cs with
  | some ('0' :: d :: rest) => if underscore then some ('0' :: d :: rest) else none
  | digits => digits

/-- A float with at least one of a fraction and an exponent. One that is too
large to be finite stands for no number. -/
def float? (word : List Char) : Option Value := do
  let isMark (c : Char) : Bool := c == 'e' || c == 'E'
  let (front, cs) := front word
  let (mantissa, exponent) := cs.span (!isMark ·)
  let (whole, fraction) := mantissa.span (· != '.')
  if exponent.isEmpty && fraction.isEmpty then none
  else
    let whole ← wholeDigits? front.underscore whole
    let fraction ← match fraction with
      | [] => some []
      | _ :: digits => grouped? Char.isDigit digits
    let exponent : Int ← match exponent with
      | [] => some 0
      | _ :: rest => do
        let (negative, digits) := sign rest
        let digits ← grouped? Char.isDigit digits
        let n : Int := ofDigits 10 digits
        some (if negative then -n else n)
    let x := Binary.ofDecimal .double front.negative (ofDigits 10 (whole ++ fraction))
      (exponent - (fraction.length : Int))
    some (if x.isFinite then .float x else .numeral (String.ofList word))

def specialFloat? (cs : List Char) : Option Value :=
  let (negative, cs) := sign cs
  match cs with
  | ['i', 'n', 'f'] => some (.float (.infinite negative))
  | ['n', 'a', 'n'] => some (.float (.nan negative))
  | _ => none

-- ---------------------------------------------------------------------------
-- Dates and times
-- ---------------------------------------------------------------------------

def field? (width least greatest : Nat) (cs : List Char) : Option (Nat × List Char) :=
  let digits := cs.take width
  match Text.readNumeral (greatest + 1) digits with
  | some n => if digits.length = width ∧ least ≤ n then some (n, cs.drop width) else none
  | none => none

def isLeapYear (year : Nat) : Bool :=
  year % 4 = 0 && (year % 100 != 0 || year % 400 = 0)

def daysInMonth (year month : Nat) : Nat :=
  if month = 2 then (if isLeapYear year then 29 else 28)
  else if month = 4 ∨ month = 6 ∨ month = 9 ∨ month = 11 then 30
  else 31

def afterDate? (cs : List Char) : Option (List Char) := do
  let (year, cs) ← field? 4 0 9999 cs
  let '-' :: cs := cs | none
  let (month, cs) ← field? 2 1 12 cs
  let '-' :: cs := cs | none
  let (_, cs) ← field? 2 1 (daysInMonth year month) cs
  some cs

def afterTime? (cs : List Char) : Option (List Char) := do
  let (_, cs) ← field? 2 0 23 cs
  let ':' :: cs := cs | none
  let (_, cs) ← field? 2 0 59 cs
  match cs with
  | ':' :: cs =>
    let (_, cs) ← field? 2 0 60 cs
    match cs with
    | '.' :: cs => if (Text.digitRun cs).1.isEmpty then none else some (Text.digitRun cs).2
    | cs => some cs
  | cs => some cs

/-- Whether a text is the offset from universal time behind a time of day. -/
def isOffset : List Char → Bool
  | ['Z'] | ['z'] => true
  | c :: cs =>
    (c == '+' || c == '-') &&
      match field? 2 0 23 cs with
      | some (_, ':' :: cs) =>
        match field? 2 0 59 cs with
        | some (_, rest) => rest.isEmpty
        | none => false
      | _ => false
  | [] => false

def isDateSeparator (c : Char) : Bool :=
  c == 'T' || c == 't' || c == ' '

def isDate (cs : List Char) : Bool :=
  match afterDate? cs with
  | some rest => rest.isEmpty
  | none => false

/-- A date, a time of day, or a date with a time of day and perhaps an offset. -/
def isDatetime (cs : List Char) : Bool :=
  match afterDate? cs with
  | some [] => true
  | some (c :: rest) =>
    isDateSeparator c &&
      match afterTime? rest with
      | some rest => rest.isEmpty || isOffset rest
      | none => false
  | none =>
    match afterTime? cs with
    | some rest => rest.isEmpty
    | none => false

-- ---------------------------------------------------------------------------
-- All of them
-- ---------------------------------------------------------------------------

def ofChars? (cs : List Char) : Option Value :=
  match cs with
  | ['t', 'r', 'u', 'e'] => some (.boolean true)
  | ['f', 'a', 'l', 's', 'e'] => some (.boolean false)
  | '0' :: 'x' :: digits => ofBase? 16 isHexDigit cs digits
  | '0' :: 'o' :: digits => ofBase? 8 isOctalDigit cs digits
  | '0' :: 'b' :: digits => ofBase? 2 isBinaryDigit cs digits
  | _ =>
    decimalInteger? cs <|> float? cs <|> specialFloat? cs <|>
      if isDatetime cs then some (.datetime (String.ofList cs)) else none

end SpokenCountdown.Toml.Scalar
