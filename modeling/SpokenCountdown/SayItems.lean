import SpokenCountdown.Phrasing
import SpokenCountdown.Binary.Shortest
import SpokenCountdown.Settings

/-!
# Explicit say items

An item is valid when its offset is positive, its message is not blank and its
rate, if it has one, is finite and positive.
-/

namespace SpokenCountdown

namespace SayItem

inductive Fault where
  | zeroOffset
  | blankMessage
  | badRate (rate : Binary)
  deriving DecidableEq, Repr

def Fault.reason : Fault → String
  | .zeroOffset => "offset must be positive"
  | .blankMessage => "message is empty"
  | .badRate rate => s!"rate must be positive, got {rate.text .single}"

/-- The announcement of a valid item: message trimmed, rate filled in. -/
def announcement (item : SayItem) : Except Fault Announcement :=
  let message := Text.trim item.message
  if item.offset = 0 then .error .zeroOffset
  else if message = "" then .error .blankMessage
  else match item.rate with
    | none => .ok ⟨item.offset, message, Phrasing.rateFor message⟩
    | some rate =>
      if rate.isPositive then .ok ⟨item.offset, message, rate⟩ else .error (.badRate rate)

/-- The announcements of a list whose first item has the index `index`; the
first invalid item is reported with its index. -/
def announcementsFrom (index : Nat) : List SayItem → Except (Nat × Fault) (List Announcement)
  | [] => .ok []
  | item :: rest =>
    match item.announcement with
    | .error fault => .error (index, fault)
    | .ok a =>
      match announcementsFrom (index + 1) rest with
      | .error e => .error e
      | .ok as => .ok (a :: as)

def announcements (items : List SayItem) : Except (Nat × Fault) (List Announcement) :=
  announcementsFrom 0 items

end SayItem

end SpokenCountdown
