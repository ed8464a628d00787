import FleetControl.Error

/-!
# Reports of a reconciliation

What came of bringing one workflow to its desired state: the actions that succeeded, those that
failed, and whether the status document was written or deleted.
-/

namespace FleetControl

/-- What came of reconciling one workflow. -/
structure ReconcileReport where
  workflow : String
  applied : List PlannedAction
  failures : List DispatchFailure
  /-- Whether the status document was written or deleted. -/
  statusWritten : Bool
  deriving DecidableEq, Repr

namespace ReconcileReport

/-- Nothing was done. -/
def empty (workflow : String) : ReconcileReport := ⟨workflow, [], [], false⟩

/-- How many actions were attempted. -/
def attempted (r : ReconcileReport) : Nat := r.applied.length + r.failures.length

/-- Whether every attempted action succeeded. -/
def converged (r : ReconcileReport) : Bool := r.failures.isEmpty

/-- The report if no action failed, and else the error that tells the failures. -/
def result (r : ReconcileReport) : Except ControlError ReconcileReport :=
  if r.converged then .ok r else .error (.dispatch r.workflow r.failures)

/-- The report as a document. -/
def toJson (r : ReconcileReport) : Json :=
  .object [("workflow", .text r.workflow),
    ("applied", .array (r.applied.map PlannedAction.toJson)),
    ("failures", .array (r.failures.map DispatchFailure.toJson)),
    ("status_written", .bool r.statusWritten)]

end ReconcileReport

end FleetControl
