import FleetControl.Reconcile.Applied

/-!
# Reconciling workflows

The passes that make agents run what the manifests say.

* `reconcileManifest` — bring one workflow to its manifest: plan against the last-applied spec,
  carry out the actions, and write back a status document that claims only what succeeded;
* `reconcileRemoval` — take a deleted workflow off its agents, and delete its status document once
  that is done;
* `reconcileOrphans` — the same for every workflow whose status document has outlived its manifest.
-/

namespace FleetControl

/-- Read the status document of a workflow. -/
def loadStatus (name : String) : Control (Except ControlError (Option WorkflowStatus)) := do
  match ← Control.get (statusKey name) with
  | .ok kv =>
    match WorkflowStatus.decode? kv.data with
    | some s => pure (.ok (some s))
    | none => pure (.error .json)
  | .error e => pure (if e.isNotFound then .ok none else .error (.store e))

/-- Write the status document of a working copy, under the name in its spec. -/
def saveStatus (a : Applied) : Control (Except ControlError Unit) := do
  let now ← Control.clock
  let s := a.toStatus (some now)
  match ← Control.set (statusKey s.name) s.encode with
  | .ok _ => pure (.ok ())
  | .error e => pure (.error (.store e))

/-- The actions of a pass over a manifest: the plan, and the removal of unconfirmed pipelines that
the manifest does not have. -/
def manifestActions (desired : WorkflowSpec) (a : Applied) : List PlannedAction :=
  let stale := (a.unconfirmed.keys.filter fun name => !desired.pipelines.contains name).map
    fun name => (⟨name, .remove⟩ : PlannedAction)
  let planned := plan desired a.spec
  if stale.isEmpty then planned else PlannedAction.sort (planned ++ stale)

/-- Bring a workflow to its manifest. -/
def reconcileWorkflow (deadline : Span) (desired : WorkflowSpec)
    (previous : Option WorkflowStatus) : Control (Except ControlError ReconcileReport) := do
  let name := desired.name
  let start := Applied.ofStatus? name previous
  let attempt ← Attempt.all deadline name desired (manifestActions desired start) start
  let attempted := attempt.applied.length + attempt.failures.length
  let sameDescription : Bool := attempt.state.spec.description = desired.description
  if previous.isSome && attempted == 0 && sameDescription then
    pure (.ok (attempt.report name false))
  else do
    let a := attempt.state
    let a := { a with spec := { a.spec with description := desired.description } }
    match ← saveStatus a with
    | .ok () => pure (.ok (attempt.report name true))
    | .error e => pure (.error e)

/-- Bring the workflow of a manifest key to the manifest. Invalid manifests and store failures are
errors; actions that failed are listed in the report. -/
def reconcileManifest (deadline : Span) (key : String) (data : Bytes) :
    Control (Except ControlError ReconcileReport) :=
  match workflowName? key with
  | none => pure (.error (.invalid (.invalidName key)))
  | some name =>
    match WorkflowSpec.ofManifest name data with
    | .error e => pure (.error (.invalid e))
    | .ok desired => do
      match ← loadStatus name with
      | .error e => pure (.error e)
      | .ok previous => reconcileWorkflow deadline desired previous

/-- The removal of everything that a working copy claims or suspects to run. -/
def removalActions (a : Applied) : List PlannedAction :=
  (a.spec.pipelines.keys ++ a.unconfirmed.keys).map fun name => ⟨name, .remove⟩

/-- Delete the status document of a workflow; that it is gone already is no failure. -/
def deleteStatus (name : String) : Control (Except ControlError Unit) := do
  match ← Control.delete (statusKey name) with
  | .ok () => pure (.ok ())
  | .error e => pure (if e.isNotFound then .ok () else .error (.store e))

/-- Take a workflow off its agents. -/
def removeWorkflow (deadline : Span) (name : String) :
    Control (Except ControlError ReconcileReport) := do
  match ← loadStatus name with
  | .error e => pure (.error e)
  | .ok none => pure (.ok (.empty name))
  | .ok (some status) =>
    let start := Applied.ofStatus status
    let attempt ← Attempt.all deadline name (.empty name) (removalActions start) start
    let written ←
      if attempt.failures.isEmpty then deleteStatus name else saveStatus attempt.state
    match written with
    | .ok () => pure (.ok (attempt.report name true))
    | .error e => pure (.error e)

/-- Take the workflow of a manifest key off its agents. -/
def reconcileRemoval (deadline : Span) (key : String) :
    Control (Except ControlError ReconcileReport) :=
  match workflowName? key with
  | none => pure (.error (.invalid (.invalidName key)))
  | some name => removeWorkflow deadline name

/-- Go through status documents and take off the workflows without a manifest; the names of those
that are gone entirely, and an error ends the walk. -/
def removeOrphans (deadline : Span) : List Snapshot → Control (Except ControlError (List String))
  | [] => pure (.ok [])
  | kv :: rest =>
    if kv.dead then removeOrphans deadline rest
    else do
      let name := String.ofList (kv.key.toList.drop statusScope.length)
      match ← Control.contains (workflowKey name) with
      | .error e => pure (.error (.store e))
      | .ok true => removeOrphans deadline rest
      | .ok false =>
        match ← removeWorkflow deadline name with
        | .error e => pure (.error e)
        | .ok report => do
          let more ← removeOrphans deadline rest
          pure (more.map fun names => if report.converged then name :: names else names)

/-- Take off every workflow whose status document has outlived its manifest. -/
def reconcileOrphans (deadline : Span) : Control (Except ControlError (List String)) := do
  match ← Control.list statusScope with
  | .error e => pure (.error (.store e))
  | .ok found => removeOrphans deadline found

end FleetControl
