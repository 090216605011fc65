import SpokenCountdown.Directive
import SpokenCountdown.Text.Blank
import SpokenCountdown.Text.Numeral

/-!
# Parsing directives

A token is read whole and without regard to ASCII case:

    [every|all][-_] body
    [every|all][-_] count[-_] (first|last)[-_] body
    [every|all][-_] count(-|_) body
    [every|all][-_] (first|last)[-_] body

where a body is a time, `<digits>[-_][s|m|h]`, or a fraction,
`[digit][-_]1/<2..10>`. A token that can be read both as a body and as a count
before one is a body. Words of a spec that are no directives are skipped.
-/

namespace SpokenCountdown.Directive

def skipSeparator : List Char → List Char
  | '-' :: cs => cs
  | '_' :: cs => cs
  | cs => cs

def startsWith (keyword : String) (cs : List Char) : Bool :=
  keyword.toList.isPrefixOf cs

def afterKeyword? (keyword : String) (cs : List Char) : Option (List Char) :=
  if startsWith keyword cs then
    some (skipSeparator (cs.drop keyword.toList.length))
  else
    none

def readQuantifier (cs : List Char) : Quantifier × List Char :=
  match afterKeyword? "every" cs with
  | some rest => (.every, rest)
  | none =>
    match afterKeyword? "all" cs with
    | some rest => (.all, rest)
    | none => (.single, cs)

def readAnchor (cs : List Char) : Anchor × List Char :=
  match afterKeyword? "first" cs with
  | some rest => (.first, rest)
  | none =>
    match afterKeyword? "last" cs with
    | some rest => (.last, rest)
    | none => (.both, cs)

def unit? : List Char → Option TimeUnit
  | [] => some .seconds
  | ['s'] => some .seconds
  | ['m'] => some .minutes
  | ['h'] => some .hours
  | _ => none

def time? (cs : List Char) : Option Form :=
  if cs.head? = some '0' then none
  else do
    let (digits, rest) := Text.digitRun cs
    let amount ← Text.readNumeral Text.word32 digits
    let unit ← unit? (skipSeparator rest)
    some (.time amount unit)

def denominator? (cs : List Char) : Option Nat :=
  if cs = ['1', '0'] then some 10
  else match cs with
    | [c] => if '2' ≤ c ∧ c ≤ '9' then some (c.toNat - '0'.toNat) else none
    | _ => none

/-- The numerator left of the slash: a `1`, with one more digit in front of it
when a numerator was written. Such a digit is the outer `some`'s content. -/
def numerator? (cs : List Char) : Option (Option Nat) :=
  match cs.reverse with
  | '1' :: before =>
    match skipSeparator before with
    | [] => some none
    | [c] => if '1' ≤ c ∧ c ≤ '9' then some (some (c.toNat - '0'.toNat)) else none
    | _ => none
  | _ => none

def fraction? (cs : List Char) : Option Form :=
  match cs.dropWhile (· != '/') with
  | [] => none
  | _ :: right => do
    let denominator ← denominator? right
    let numerator ← numerator? (cs.takeWhile (· != '/'))
    some (.fraction numerator denominator)

def body? (cs : List Char) : Option Form :=
  fraction? cs <|> time? cs

/-- The count that the text begins with, if any, and what follows it. A count
needs a separator or an anchor behind it. -/
def count? (cs : List Char) : Option (Option Nat × List Char) :=
  match Text.digitRun cs with
  | ([], _) => some (none, cs)
  | (digits, rest) => do
    let count ← Text.readNumeral Text.word32 digits
    let separated := skipSeparator rest
    if count = 0 then none
    else if separated = rest ∧ !startsWith "first" rest ∧ !startsWith "last" rest then none
    else some (some count, separated)

def counted? (cs : List Char) : Option (Option Nat × Anchor × Form) := do
  let (multiplier, rest) ← count? cs
  let (anchor, rest) := readAnchor rest
  if multiplier = none ∧ anchor = .both then none
  else do
    let form ← body? rest
    some (multiplier, anchor, form)

def parse? (token : String) : Option Directive :=
  let (quantifier, rest) := readQuantifier (Text.lowercase token.toList)
  match body? rest with
  | some form => some ⟨quantifier, .both, none, form, token⟩
  | none => (counted? rest).map fun (multiplier, anchor, form) =>
    ⟨quantifier, anchor, multiplier, form, token⟩

def ofSpec (spec : String) : List Directive :=
  (Text.words spec.toList).filterMap fun word => parse? (String.ofList word)

end SpokenCountdown.Directive
