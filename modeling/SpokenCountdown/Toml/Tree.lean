import SpokenCountdown.Toml.Value

/-!
# Tables while a document is read

How a table came about decides what may still be added to it. A header defines
each table once, but may define one that was only implied by a longer header. A
dotted key adds to tables that dotted keys made, never to the table of a header
or to a value.
-/

namespace SpokenCountdown.Toml

inductive Origin where
  | header
  /-- A header of a table inside it. -/
  | implied
  | dottedKey
  deriving DecidableEq, Repr

inductive Node where
  /-- A complete value: nothing can be added to it. -/
  | value (value : Value)
  | table (origin : Origin) (fields : List (String × Node))
  /-- An array of tables, one for each of its headers, the latest first. -/
  | tables (latest : List (String × Node)) (earlier : List (List (String × Node)))

abbrev Branch := List (String × Node)

namespace Branch

def replace (branch : Branch) (key : String) (node : Node) : Branch :=
  branch.map fun field => if field.1 = key then (key, node) else field

/-- Writes a value under a key that may be dotted: `path` are its parts before the last. -/
def put (value : Value) (key : String) : List String → Branch → Option Branch
  | [], branch =>
    match branch.lookup key with
    | none => some (branch ++ [(key, .value value)])
    | some _ => none
  | part :: path, branch =>
    match branch.lookup part with
    | none => do
      let inner ← put value key path []
      some (branch ++ [(part, .table .dottedKey inner)])
    | some (.table .dottedKey inner) => do
      let inner ← put value key path inner
      some (branch.replace part (.table .dottedKey inner))
    | some (.table .implied inner) =>
      if path.isEmpty then none
      else do
        let inner ← put value key path inner
        some (branch.replace part (.table .implied inner))
    | some (.tables latest earlier) =>
      if path.isEmpty then none
      else do
        let latest ← put value key path latest
        some (branch.replace part (.tables latest earlier))
    | some (.table .header _) | some (.value _) => none

/-- Changes the table that a header's path leads to. Tables on the way that are
not there yet are implied, and of an array of tables the latest is meant. -/
def within (change : Branch → Option Branch) : List String → Branch → Option Branch
  | [], branch => change branch
  | part :: path, branch =>
    match branch.lookup part with
    | none => do
      let inner ← within change path []
      some (branch ++ [(part, .table .implied inner)])
    | some (.table origin inner) => do
      let inner ← within change path inner
      some (branch.replace part (.table origin inner))
    | some (.tables latest earlier) => do
      let latest ← within change path latest
      some (branch.replace part (.tables latest earlier))
    | some (.value _) => none

def define (key : String) (branch : Branch) : Option Branch :=
  match branch.lookup key with
  | none => some (branch ++ [(key, .table .header [])])
  | some (.table .implied inner) => some (branch.replace key (.table .header inner))
  | some _ => none

def addTable (key : String) (branch : Branch) : Option Branch :=
  match branch.lookup key with
  | none => some (branch ++ [(key, .tables [] [])])
  | some (.tables latest earlier) => some (branch.replace key (.tables [] (latest :: earlier)))
  | some _ => none

end Branch

mutual

def Node.close : Node → Value
  | .value value => value
  | .table _ fields => .table (closeFields fields)
  | .tables latest earlier => .array (.table (closeFields latest) :: closeTables earlier).reverse

def closeFields : List (String × Node) → List (String × Value)
  | [] => []
  | (key, node) :: rest => (key, node.close) :: closeFields rest

def closeTables : List (List (String × Node)) → List Value
  | [] => []
  | fields :: rest => .table (closeFields fields) :: closeTables rest

end

end SpokenCountdown.Toml
