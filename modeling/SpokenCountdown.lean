import SpokenCountdown.Main
import SpokenCountdown.Proofs.Countdown.Operation
import SpokenCountdown.Proofs.Countdown.Transition
import SpokenCountdown.Proofs.Countdown.Route
import SpokenCountdown.Proofs.Countdown.Agreement
import SpokenCountdown.Proofs.Countdown.Coherence
import SpokenCountdown.Proofs.Countdown.Delivery
import SpokenCountdown.Proofs.Countdown.Pacing
import SpokenCountdown.Proofs.Timeline.InStep
import SpokenCountdown.Proofs.Timeline.Quiet
import SpokenCountdown.Proofs.Timeline.Journal
import SpokenCountdown.Proofs.Timeline.Programme
import SpokenCountdown.Proofs.Timeline.Forecast
import SpokenCountdown.Proofs.Timeline.Moment
import SpokenCountdown.Proofs.Timeline.Unrolling
import SpokenCountdown.Proofs.Timeline.Refusal
import SpokenCountdown.Proofs.Countdown.Elapsed
import SpokenCountdown.Proofs.Directive.Grammar
import SpokenCountdown.Proofs.Directive.Parsing
import SpokenCountdown.Proofs.Phrasing.Spoken
import SpokenCountdown.Proofs.Expansion.Truthful
import SpokenCountdown.Proofs.Directive.Selection
import SpokenCountdown.Proofs.Reconciliation.Precedence
import SpokenCountdown.Proofs.Countdown.Acceptance
import SpokenCountdown.Proofs.Countdown.Path
import SpokenCountdown.Proofs.Expansion.Safety
import SpokenCountdown.Proofs.Countdown.Renewal
import SpokenCountdown.Proofs.Preferences.InPlace
import SpokenCountdown.Proofs.Preferences.WellKept
import SpokenCountdown.Proofs.Console.Response
import SpokenCountdown.Proofs.Console.Failure
import SpokenCountdown.Proofs.Console.InForce
import SpokenCountdown.Proofs.Reconciliation.Grounds
import SpokenCountdown.Proofs.Timeline.Burst
import SpokenCountdown.Proofs.Binary.Order
import SpokenCountdown.Proofs.Binary.Exact
import SpokenCountdown.Proofs.Countdown.Vanishing
import SpokenCountdown.Proofs.Toml.QuotedText
import SpokenCountdown.Proofs.Toml.ReadAs
import SpokenCountdown.Proofs.Toml.PlainText
import SpokenCountdown.Proofs.Toml.Growth
import SpokenCountdown.Proofs.Toml.Lines
import SpokenCountdown.Proofs.Toml.Written
import SpokenCountdown.Proofs.Preferences.Restored
import SpokenCountdown.Proofs.Expansion.Uncapped
import SpokenCountdown.Proofs.Phrasing.LowestTerms
import SpokenCountdown.Proofs.Expansion.Shares
import SpokenCountdown.Proofs.Directive.Canonical
import SpokenCountdown.Proofs.Preferences.Recalled
import SpokenCountdown.Proofs.Duration.Argument
import SpokenCountdown.Proofs.Duration.Label
import SpokenCountdown.Proofs.Reconciliation.Again
import SpokenCountdown.Proofs.Text.Spelled
import SpokenCountdown.Proofs.Reconciliation.Families
import SpokenCountdown.Proofs.Settings.Verdict
import SpokenCountdown.Proofs.Expansion.Mirrored
import SpokenCountdown.Proofs.Binary.Accuracy
import SpokenCountdown.Proofs.Countdown.Descent
import SpokenCountdown.Proofs.Expansion.Numerator
import SpokenCountdown.Proofs.Phrasing.ClockReading
import SpokenCountdown.Proofs.Phrasing.FractionValue
import SpokenCountdown.Proofs.Countdown.Due
