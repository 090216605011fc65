import SpokenCountdown.Settings.Document
import SpokenCountdown.Toml.Reader

/-!
# Files of say items

A document whose array `say` holds the items; a document without it holds none.
-/

namespace SpokenCountdown

namespace SayItem

inductive FileError where
  | unreadable (path : String)
  | malformed
  deriving DecidableEq, Repr

def FileError.message : FileError → String
  | .unreadable path => s!"failed to read say-data file {path}"
  | .malformed => "failed to parse say-data"

def ofText (text : String) : Except FileError (List SayItem) :=
  let items := do
    let document ← Toml.Table.ofText? text
    let document ← document.record? ["say"]
    document.orDefault "say" (Toml.Value.list? SayItem.ofValue?) []
  match items with
  | some items => .ok items
  | none => .error .malformed

def ofFile (path : String) : Option String → Except FileError (List SayItem)
  | some text => ofText text
  | none => .error (.unreadable path)

end SayItem

end SpokenCountdown
