import SpokenCountdown.Binary.Shortest
import SpokenCountdown.Toml.Reader

/-!
# Writing documents

A document is written in blocks that a blank line separates: the plain fields of
a table, then a block for each table and each array of tables inside it, under
headers with the full path. Floats have the fewest digits that tell them apart
in a given format.
-/

namespace SpokenCountdown.Toml

/-- A float, with a fraction also where it is whole. -/
def writeFloat (format : Binary.Format) : Binary → String
  | .nan negative => if negative then "-nan" else "nan"
  | .infinite negative => if negative then "-inf" else "inf"
  | .finite negative significand exponent =>
    let text := (Binary.finite negative significand exponent).text format
    if (Binary.shortest format significand exponent).isWhole then text ++ ".0" else text

def writeInteger (n : Int) : String :=
  String.ofList (if n < 0 then '-' :: Text.numeral n.natAbs else Text.numeral n.natAbs)

def writeKey (key : String) : String :=
  if key ≠ "" ∧ key.toList.all Reader.isBareKeyChar then key else Quoted.write key

namespace Value

mutual

/-- A value on one line, as it stands behind its key. -/
def write (format : Binary.Format) : Value → String
  | .string s => Quoted.write s
  | .integer n => writeInteger n
  | .float x => writeFloat format x
  | .boolean b => if b then "true" else "false"
  | .numeral text | .datetime text => text
  | .array items => "[" ++ ", ".intercalate (writeItems format items) ++ "]"
  | .table [] => "\x7b\x7d"
  | .table fields => "\x7b " ++ ", ".intercalate (writeFields format fields) ++ " \x7d"

def writeItems (format : Binary.Format) : List Value → List String
  | [] => []
  | item :: rest => item.write format :: writeItems format rest

def writeFields (format : Binary.Format) : List (String × Value) → List String
  | [] => []
  | (key, value) :: rest =>
    (writeKey key ++ " = " ++ value.write format) :: writeFields format rest

end

def isPlain : Value → Bool
  | .table _ => false
  | .array items => items.isEmpty || items.any (!·.isTable)
  | _ => true

end Value

abbrev Block := List String

namespace Table

def plainLines (format : Binary.Format) (t : Table) : List String :=
  Value.writeFields format (t.filter (·.2.isPlain))

end Table

mutual

def Value.blocks (format : Binary.Format) (path : String) : Value → List Block
  | .table fields =>
    (s!"[{path}]" :: Table.plainLines format fields) :: fieldBlocks format (path ++ ".") fields
  | .array items => itemBlocks format path (items.all (·.isTable)) items
  | _ => []

def fieldBlocks (format : Binary.Format) (parent : String) : List (String × Value) → List Block
  | [] => []
  | (key, value) :: rest =>
    value.blocks format (parent ++ writeKey key) ++ fieldBlocks format parent rest

def itemBlocks (format : Binary.Format) (path : String) (all : Bool) : List Value → List Block
  | [] => []
  | .table fields :: rest =>
    (if all then
      (s!"[[{path}]]" :: Table.plainLines format fields) :: fieldBlocks format (path ++ ".") fields
    else []) ++ itemBlocks format path all rest
  | _ :: rest => itemBlocks format path all rest

end

def Table.write (format : Binary.Format) (t : Table) : String :=
  let blocks := t.plainLines format :: fieldBlocks format "" t
  "\n".intercalate ((blocks.filter (!·.isEmpty)).map fun lines => "".intercalate (lines.map (· ++ "\n")))

end SpokenCountdown.Toml
