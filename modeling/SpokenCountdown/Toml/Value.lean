import SpokenCountdown.Binary

/-!
# TOML values

A document is a table. Tables keep their fields in the order they were written
and have no field twice. A number is looked at only where it is used, so a
document may hold numerals that stand for none.
-/

namespace SpokenCountdown.Toml

inductive Value where
  | string (s : String)
  | integer (n : Int)
  | float (x : Binary)
  /-- Has the form of a number but stands for none: it is too large, or its digits are not. -/
  | numeral (text : String)
  | boolean (b : Bool)
  | datetime (text : String)
  | array (items : List Value)
  | table (fields : List (String × Value))
  deriving Repr, Inhabited

abbrev Table := List (String × Value)

namespace Value

def isTable : Value → Bool
  | .table _ => true
  | _ => false

mutual

def isSound : Value → Bool
  | .numeral _ => false
  | .array items => areSound items
  | .table fields => haveSound fields
  | _ => true

def areSound : List Value → Bool
  | [] => true
  | item :: rest => item.isSound && areSound rest

def haveSound : List (String × Value) → Bool
  | [] => true
  | (_, value) :: rest => value.isSound && haveSound rest

end

end Value

namespace Table

def field? (t : Table) (name : String) : Option Value :=
  t.lookup name

end Table

end SpokenCountdown.Toml
