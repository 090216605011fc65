import SpokenCountdown.Directive
import SpokenCountdown.Phrasing
import SpokenCountdown.Settings

/-!
# Expansion

The announcements that one directive describes for a countdown of `total`
milliseconds. Offsets are milliseconds remaining; nothing is filtered or sorted.
-/

namespace SpokenCountdown

/-- The least distance between kept announcements. -/
def tolerance : Nat := 5000

namespace Expansion

open Phrasing (announcement timeMessage fractionMessage)

def halfWay (total : Nat) (phrases : Phrases) : Announcement :=
  announcement (total / 2) phrases.halfWay

/-- The announcement `span` milliseconds from the anchor; a span from the start
that is longer than the countdown has none. -/
def anchored (span : Nat) (anchor : Anchor) (total : Nat) (phrases : Phrases) :
    Option Announcement :=
  match anchor with
  | .first =>
    if span ≤ total then
      some (announcement (total - span) (timeMessage span phrases.gone true))
    else none
  | .last | .both => some (announcement span (timeMessage span phrases.toGo false))

def multiples (span count : Nat) (anchor : Anchor) (total : Nat) (phrases : Phrases) :
    List Announcement :=
  (List.range count).filterMap fun k => anchored ((k + 1) * span) anchor total phrases

/-- Pairs at every multiple of `cadence` up to the midpoint, from both ends. -/
def symmetric (cadence total : Nat) (phrases : Phrases) : List Announcement :=
  (List.range (total / 2 / cadence)).flatMap fun k =>
    let span := (k + 1) * cadence
    [announcement span (timeMessage span phrases.toGo false),
      announcement (total - span) (timeMessage span phrases.gone false)]

def times (d : Directive) (amount : Nat) (unit : TimeUnit) (total : Nat) (phrases : Phrases) :
    List Announcement :=
  let interval := amount * unit.milliseconds
  match d.quantifier, d.anchor with
  | .single, anchor =>
    multiples interval (min d.count (total / interval + 1)) anchor total phrases
  | .all, .both => symmetric interval total phrases
  | .every, .both => symmetric (interval * d.count) total phrases
  | .all, anchor =>
    let count := min amount (total / unit.milliseconds)
    (multiples unit.milliseconds count anchor total phrases).reverse
  | .every, anchor =>
    let most := total / interval
    let count := (d.multiplier.map (min · most)).getD most
    (multiples interval count anchor total phrases).reverse

/-- A mark next to the midpoint becomes the announcement of the midpoint. -/
def collapse (total : Nat) (phrases : Phrases) (a : Announcement) : Announcement :=
  let half := total / 2
  if (max a.offset half) - (min a.offset half) < tolerance then halfWay total phrases else a

def fractions (d : Directive) (numerator : Option Nat) (denominator total : Nat)
    (phrases : Phrases) : List Announcement :=
  if denominator = 2 then [halfWay total phrases]
  else
    let marks := denominator - 1
    let wanted := d.multiplier <|> numerator.filter (1 < ·)
    let count := (wanted.map (min · marks)).getD marks
    let mark (k : Nat) := total * k / denominator
    let message (k : Nat) (suffix : String) :=
      match fractionMessage k denominator with
      | some text => text ++ suffix
      | none => phrases.halfWay
    let toGo (k : Nat) := announcement (mark k) (message k phrases.toGo)
    let gone (k : Nat) := announcement (total - mark k) (message k phrases.gone)
    let ks (n : Nat) := (List.range n).map (· + 1)
    let found := match d.anchor with
      | .both => (ks (min count (denominator / 2))).flatMap fun k => [toGo k, gone k]
      | .last => (ks count).map toGo
      | .first => (ks count).map gone
    found.map (collapse total phrases)

end Expansion

def Directive.expand (d : Directive) (total : Nat) (phrases : Phrases) : List Announcement :=
  if total = 0 then []
  else match d.form with
    | .time amount unit => Expansion.times d amount unit total phrases
    | .fraction numerator denominator =>
      Expansion.fractions d numerator denominator total phrases

end SpokenCountdown
