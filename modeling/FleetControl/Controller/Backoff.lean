import FleetControl.Span

/-!
# Waiting after a failure

A failed pass is tried again after a base delay, or after as many base delays as there were failures
in a row.
-/

namespace FleetControl

/-- The base delay that stands in for an empty one. -/
def defaultRetryBase : Span := .ofSeconds 1

/-- The delay after `failures` failures in a row: linear in their number with back-off, and the base
delay without. -/
def retryDelay (failures : Nat) (base : Span) (backoff : Bool) : Span :=
  let base := if base.isZero then defaultRetryBase else base
  if backoff then base.timesUpTo (max failures 1) else base

end FleetControl
