import SpokenCountdown.Toml.Quoted
import SpokenCountdown.Toml.Tree

/-!
# Reading documents

A document is a list of statements, one a line: headers, and keys with their
values. Each reader takes the text that is left and returns what it read with
what is left behind it. Loops are bounded by the length of the text, values in
values by the greatest nesting.
-/

namespace SpokenCountdown.Toml

abbrev Reader (α : Type) := List Char → Option (α × List Char)

/-- Arrays and inline tables lie at most this deep in each other. -/
def greatestNesting : Nat := 80

namespace Reader

def skipBlanks (cs : List Char) : List Char :=
  cs.dropWhile fun c => c == ' ' || c == '\t'

def skipComment : List Char → Option (List Char)
  | '#' :: rest =>
    let ends (c : Char) : Bool := c == '\n' || c == '\x0d'
    let (text, rest) := rest.span (!ends ·)
    if text.any Quoted.isControl then none else some rest
  | cs => some cs

def endOfLine? (cs : List Char) : Option (List Char) := do
  match ← skipComment (skipBlanks cs) with
  | [] => some []
  | cs => Quoted.afterLineEnd? cs

/-- What is left behind blanks, line ends and comments, of which there are at
most as many as the text has characters. -/
def skipLines : Nat → List Char → Option (List Char)
  | 0, cs => some cs
  | fuel + 1, cs => do
    let cs ← skipComment (skipBlanks cs)
    match Quoted.afterLineEnd? cs with
    | some rest => skipLines fuel rest
    | none => some cs

def skipSpace (cs : List Char) : Option (List Char) :=
  skipLines cs.length cs

-- ---------------------------------------------------------------------------
-- Keys
-- ---------------------------------------------------------------------------

def isBareKeyChar (c : Char) : Bool :=
  c.isAlphanum || c == '_' || c == '-'

def keyPart : Reader String := fun cs =>
  match cs.span isBareKeyChar with
  | ([], cs) => Quoted.readLine? cs
  | (bare, rest) => some (String.ofList bare, rest)

structure Key where
  path : List String
  last : String

def keyParts : Nat → Reader Key
  | 0, _ => none
  | fuel + 1, cs => do
    let (part, rest) ← keyPart cs
    match skipBlanks rest with
    | '.' :: rest => do
      let (key, rest) ← keyParts fuel (skipBlanks rest)
      some ({ key with path := part :: key.path }, rest)
    | rest => some (⟨[], part⟩, rest)

/-- A key has at most this many parts. -/
def greatestKeyLength : Nat := 80

def key : Reader Key := fun cs => do
  let (key, rest) ← keyParts (cs.length + 1) (skipBlanks cs)
  if key.path.length < greatestKeyLength then some (key, rest) else none

-- ---------------------------------------------------------------------------
-- Values
-- ---------------------------------------------------------------------------

def endsScalar (c : Char) : Bool :=
  [' ', '\t', '\n', '\x0d', ',', '=', '#', '[', ']', '\x7b', '\x7d'].contains c

/-- A scalar without quotes. One blank may stand between a date and a time of day. -/
def scalar : Reader Value := fun cs =>
  let (word, rest) := cs.span (!endsScalar ·)
  let (word, rest) :=
    match rest with
    | ' ' :: c :: more =>
      if Scalar.isDate word && c.isDigit then
        let (time, rest) := (c :: more).span (!endsScalar ·)
        (word ++ ' ' :: time, rest)
      else (word, rest)
    | _ => (word, rest)
  (Scalar.ofChars? word).map fun value => (value, rest)

def items (item : Reader Value) : Nat → Reader (List Value)
  | 0, _ => none
  | fuel + 1, cs => do
    match ← skipSpace cs with
    | ']' :: rest => some ([], rest)
    | cs => do
      let (value, rest) ← item cs
      match ← skipSpace rest with
      | ',' :: rest => do
        let (values, rest) ← items item fuel rest
        some (value :: values, rest)
      | ']' :: rest => some ([value], rest)
      | _ => none

def entry (skip : List Char → Option (List Char)) (item : Reader Value) :
    Reader (Key × Value) := fun cs => do
  let (key, rest) ← key cs
  let '=' :: rest ← skip rest | none
  let (value, rest) ← item (← skip rest)
  some ((key, value), rest)

def fields (item : Reader Value) : Nat → Branch → Reader Branch
  | 0, _, _ => none
  | fuel + 1, branch, cs => do
    match ← skipSpace cs with
    | '\x7d' :: rest => some (branch, rest)
    | cs => do
      let ((key, value), rest) ← entry skipSpace item cs
      let branch ← branch.put value key.last key.path
      match ← skipSpace rest with
      | ',' :: rest => fields item fuel branch rest
      | '\x7d' :: rest => some (branch, rest)
      | _ => none

def value : Nat → Reader Value
  | 0, cs => leaf cs
  | nesting + 1, cs =>
    match cs with
    | '[' :: rest =>
      (items (value nesting) (rest.length + 1) rest).map fun (values, rest) =>
        (.array values, rest)
    | '\x7b' :: rest =>
      (fields (value nesting) (rest.length + 1) [] rest).map fun (branch, rest) =>
        (.table (closeFields branch), rest)
    | cs => leaf cs
where
  leaf : Reader Value := fun cs =>
    match cs with
    | '"' :: _ | '\'' :: _ => (Quoted.read? cs).map fun (text, rest) => (.string text, rest)
    | cs => scalar cs

end Reader

-- ---------------------------------------------------------------------------
-- Statements
-- ---------------------------------------------------------------------------

inductive Statement where
  | header (key : Reader.Key)
  /-- The header of a new table in an array of tables. -/
  | arrayHeader (key : Reader.Key)
  | entry (key : Reader.Key) (value : Value)

namespace Reader

def statement : Reader Statement := fun cs =>
  match cs with
  | '[' :: '[' :: rest => do
    let (key, rest) ← key rest
    let ']' :: ']' :: rest := rest | none
    some (.arrayHeader key, rest)
  | '[' :: rest => do
    let (key, rest) ← key rest
    let ']' :: rest := rest | none
    some (.header key, rest)
  | cs => do
    let ((key, value), rest) ← entry (some ∘ skipBlanks) (value greatestNesting) cs
    some (.entry key value, rest)

def statements : Nat → List Char → Option (List Statement)
  | 0, _ => none
  | fuel + 1, cs => do
    match ← skipSpace cs with
    | [] => some []
    | cs => do
      let (first, rest) ← statement cs
      let rest ← endOfLine? rest
      let more ← statements fuel rest
      some (first :: more)

end Reader

namespace Branch

/-- The document after one more statement. `current` is the path of the table
that the latest header named. -/
def follow (current : List String) (branch : Branch) :
    Statement → Option (List String × Branch)
  | .header key => do
    let branch ← branch.within (define key.last) key.path
    some (key.path ++ [key.last], branch)
  | .arrayHeader key => do
    let branch ← branch.within (addTable key.last) key.path
    some (key.path ++ [key.last], branch)
  | .entry key value => do
    let branch ← branch.within (put value key.last key.path) current
    some (current, branch)

def ofStatements (current : List String) (branch : Branch) : List Statement → Option Branch
  | [] => some branch
  | statement :: rest => do
    let (current, branch) ← follow current branch statement
    ofStatements current branch rest

end Branch

/-- The document of a text. A byte order mark at its front does not count. -/
def Table.ofText? (text : String) : Option Table := do
  let cs := match text.toList with
    | '\ufeff' :: rest => rest
    | cs => cs
  let statements ← Reader.statements (cs.length + 1) cs
  let branch ← Branch.ofStatements [] [] statements
  some (closeFields branch)

end SpokenCountdown.Toml
