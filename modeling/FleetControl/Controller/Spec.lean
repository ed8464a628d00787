import FleetControl.Controller.Backoff

/-!
# Controller specs

What a controller runs, and how long it waits after a pass.

* `ControllerSpec.nextWait` — after a success the interval, or no end of waiting if that is empty;
  after a failure the retry delay, unless failures are not to be retried early.
-/

namespace FleetControl

/-- What a controller runs and when; `J` is the kind of work. -/
structure ControllerSpec (J : Type) where
  job : J
  /-- The wait after a success; an empty one means that only an update wakes the controller. -/
  interval : Span
  retryBase : Span
  /-- Whether the retry delay grows with the number of failures in a row. -/
  backoff : Bool
  /-- Whether a failure waits for the interval like a success. -/
  noRetry : Bool

namespace ControllerSpec

variable {J : Type}

/-- Run a job once, and retry it with back-off while it fails. -/
def once (job : J) : ControllerSpec J := ⟨job, .zero, defaultRetryBase, true, false⟩

/-- The wait after a pass, given its outcome and the number of failures in a row; `none` is to wait
for an update. -/
def nextWait (s : ControllerSpec J) (succeeded : Bool) (failures : Nat) : Option Span :=
  if succeeded || s.noRetry then
    if s.interval.isZero then none else some s.interval
  else some (retryDelay failures s.retryBase s.backoff)

/-- The spec without its job, for logs. -/
def text (s : ControllerSpec J) : String :=
  "ControllerSpec \x7b run_interval: " ++ s.interval.text ++ ", error_retry_base: " ++
    s.retryBase.text ++ ", retry_backoff: " ++ toString s.backoff ++ ", no_retry: " ++
    toString s.noRetry ++ ", .. \x7d"

end ControllerSpec

end FleetControl
