import SpokenCountdown.Binary.Shortest

/-!
# Percent left

The remaining share of the total in percent, to three decimals. It is computed
in double precision, one rounding per operation.
-/

namespace SpokenCountdown.Countdown

/-- Thousandths of a percent: the quotient in double precision, times 100 000,
rounded to a whole number. -/
def percentThousandths (remaining total : Nat) : Nat :=
  let quotient := Binary.div .double (.ofNat .double remaining) (.ofNat .double total)
  (Binary.mul .double quotient (.ofNat .double 100000)).roundedMagnitude

def percent (remaining total : Nat) : Binary :=
  if total = 0 then .ofNat .double 0
  else .ofRatio .double false (percentThousandths remaining total) 1000

end SpokenCountdown.Countdown
