import FleetControl.Cache.Request
import FleetControl.Reconcile.Workflow

/-!
# The handler of manifests

What the workflow informer tells leads to a pass: a manifest that is new or changed is reconciled,
one that is gone is taken off its agents. Actions that failed make the callback fail, so that it is
tried again. An invalid manifest does not: nothing can be done about it until it changes.
-/

namespace FleetControl

/-- The outcome of a pass as that of a callback. -/
def callbackOutcome : Except ControlError ReconcileReport → Except Failure Unit
  | .ok report =>
    match report.result with
    | .ok _ => .ok ()
    | .error e => .error e.failure
  | .error e => .error e.failure

/-- Deal with a manifest that is new or changed. -/
def handleManifest (deadline : Span) (key : String) (data : Bytes) :
    Control (Except Failure Unit) := do
  match ← reconcileManifest deadline key data with
  | .error (.invalid _) => pure (.ok ())
  | outcome => pure (callbackOutcome outcome)

/-- Deal with a manifest that is gone. -/
def handleRemoval (deadline : Span) (key : String) : Control (Except Failure Unit) := do
  let outcome ← reconcileRemoval deadline key
  pure (callbackOutcome outcome)

/-- Deal with what the workflow informer tells. -/
def handleWorkflowEvent (deadline : Span) : WatchEvent → Control (Except Failure Unit)
  | .added kv => handleManifest deadline kv.key kv.data
  | .updated kv _ => handleManifest deadline kv.key kv.data
  | .deleted key => handleRemoval deadline key

end FleetControl
