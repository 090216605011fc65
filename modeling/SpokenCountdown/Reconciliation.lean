import SpokenCountdown.Directive.Parser
import SpokenCountdown.Expansion

/-!
# Reconciliation

From candidates in order of preference to the list that is spoken: in range, no
two at one offset, spaced by the tolerance unless both may be close, and
descending.
-/

namespace SpokenCountdown

/-- Announcements at or below this offset may stand closer than the tolerance. -/
def closeLimit : Nat := 30000

/-- Strictly nearer to each other than the tolerance. -/
def tooClose (a b : Nat) : Bool :=
  max a b - min a b < tolerance

namespace Reconciliation

def candidates (spec : String) (total : Nat) (priority : Priority) (phrases : Phrases) :
    List Announcement :=
  let directives := Directive.ofSpec spec
  let expand (ds : List Directive) := ds.flatMap (·.expand total phrases)
  let fractions := directives.filter (·.isFraction)
  let times := directives.filter (!·.isFraction)
  match priority with
  | .order => expand directives
  | .fraction => expand fractions ++ expand times
  | .time => expand times ++ expand fractions

/-- A new offset may not repeat a kept one, and above the close range it keeps
the tolerance to all of them. -/
def conflicts (new kept : Nat) : Bool :=
  new == kept || (closeLimit < new && tooClose new kept)

def admits (total : Nat) (kept : List Announcement) (a : Announcement) : Bool :=
  a.offset != 0 && a.offset < total && !kept.any fun k => conflicts a.offset k.offset

def keep (total : Nat) (candidates : List Announcement) : List Announcement :=
  candidates.foldl (fun kept a => if admits total kept a then a :: kept else kept) []

/-- Earlier candidates win; the result is descending. -/
def reconcile (candidates : List Announcement) (total : Nat) : List Announcement :=
  (keep total candidates).reverse.mergeSort fun a b => b.offset ≤ a.offset

end Reconciliation

end SpokenCountdown
