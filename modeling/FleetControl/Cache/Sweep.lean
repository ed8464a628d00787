import FleetControl.Cache.Request
import FleetControl.Controller.Spec

/-!
# The cache sweep

A key that is gone leaves no tombstone to be scanned, so the cache asks the store about every key
that it remembers. A key that is no longer there is handed to its handler as deleted, and forgotten
when the handler has dealt with it. A key that nobody watches is just forgotten.

* `sweep` — one complete round; it fails if some key could not be dealt with;
* `sweepSpec` — a round in every sweep interval, which is also the base of the delay after a
  failure.
-/

namespace FleetControl

/-- Deal with one remembered key; whether that failed. -/
def sweepKey (key : String) : Watching Bool := do
  match ← Watching.present key with
  | .error _ => pure true
  | .ok true => pure false
  | .ok false =>
    match ← Watching.handlerFor key with
    | none => do
      Watching.forget key
      pure false
    | some handler =>
      match ← Watching.notify handler (.deleted key) with
      | .ok () => do
        Watching.forget key
        pure false
      | .error _ => pure true

/-- Deal with remembered keys one after the other, until asked to stop; how many failed. -/
def sweepKeys : List String → Watching Nat
  | [] => pure 0
  | key :: rest => do
    if ← Watching.cancelled then pure 0
    else do
      let failed ← sweepKey key
      let more ← sweepKeys rest
      pure (if failed then more + 1 else more)

/-- One round over all remembered keys. -/
def sweep : Watching (Except Failure Unit) := do
  let keys ← Watching.cachedKeys
  let failed ← sweepKeys keys
  if failed = 0 then pure (.ok ())
  else pure (.error (.ofText (toString failed ++ " cached keys could not be reconciled")))

/-- How a controller sweeps a cache, given the work of a round. -/
def sweepSpec {J : Type} (interval : Span) (round : J) : ControllerSpec J :=
  { ControllerSpec.once round with interval, retryBase := interval }

end FleetControl
