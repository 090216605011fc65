import SpokenCountdown.Text.Numeral
import SpokenCountdown.Toml.Value

/-!
# Records in documents

How values stand for numbers, choices and records. A record is a table, or an
array of its fields in their order. Fields that are not known are passed over,
but their numerals have to stand for numbers; items behind the last field of an
array are not looked at.
-/

namespace SpokenCountdown.Toml

namespace Table

def record? (names : List String) (t : Table) : Option Table :=
  if t.all fun field => names.contains field.1 || field.2.isSound then some t else none

end Table

namespace Value

def ofNat (n : Nat) : Value :=
  .integer n

def string? : Value → Option String
  | .string s => some s
  | _ => none

def bool? : Value → Option Bool
  | .boolean b => some b
  | _ => none

def nat? (bound : Nat) : Value → Option Nat
  | .integer n => if 0 ≤ n ∧ n < bound then some n.toNat else none
  | _ => none

/-- A number in single precision. An integer of 64 bits will do as well. -/
def single? : Value → Option Binary
  | .integer n =>
    if -(Text.word64 / 2) ≤ n ∧ n < Text.word64 then some (.ofRatio .single (n < 0) n.natAbs 1) else none
  | .float x => some (x.convert .single)
  | _ => none

def list? (item? : Value → Option α) : Value → Option (List α)
  | .array items => items.mapM item?
  | _ => none

/-- One of some named choices: its name, or a table with the name and nothing behind it. -/
def choice? (ofName? : String → Option α) : Value → Option α
  | .string name => ofName? name
  | .table [(name, .table [])] | .table [(name, .array [])] => ofName? name
  | _ => none

/-- The fields of a record whose fields have these names in this order. A date
is a record without any of them. -/
def record? (names : List String) : Value → Option Table
  | .table fields => Table.record? names fields
  | .array items => some (names.zip items)
  | .datetime _ => some []
  | _ => none

end Value

namespace Table

def need (t : Table) (name : String) (read? : Value → Option α) : Option α :=
  (t.field? name).bind read?

def orDefault (t : Table) (name : String) (read? : Value → Option α) (default : α) : Option α :=
  match t.field? name with
  | none => some default
  | some value => read? value

def optional (t : Table) (name : String) (read? : Value → Option α) : Option (Option α) :=
  match t.field? name with
  | none => some none
  | some value => (read? value).map some

def ofOption (name : String) (write : α → Value) : Option α → Table
  | none => []
  | some x => [(name, write x)]

end Table

end SpokenCountdown.Toml
