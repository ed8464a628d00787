import FleetControl.Reconcile.Workflow

/-!
# The repository of workflows

What clients use: hand in and delete manifests, read them back, and look at the status documents.
-/

namespace FleetControl

namespace Repository

/-- Hand in a workflow: it is validated and stored without derived lists; the new version. -/
def submit (w : WorkflowSpec) : Control (Except ControlError Nat) :=
  match w.validate with
  | .error e => pure (.error (.invalid e))
  | .ok () => do
    let stored ← Control.set (workflowKey w.name) w.underived.encode
    pure (stored.mapError .store)

/-- The error of a read or a deletion of a manifest. -/
def notFound (name : String) (e : StoreError) : ControlError :=
  if e.isNotFound then .workflowNotFound name else .store e

/-- Delete a manifest. -/
def delete (name : String) : Control (Except ControlError Unit) := do
  let deleted ← Control.delete (workflowKey name)
  pure (deleted.mapError (notFound name))

/-- Read a manifest back, as the resolved workflow that it stands for. -/
def get (name : String) : Control (Except ControlError WorkflowSpec) := do
  match ← Control.get (workflowKey name) with
  | .ok kv => pure ((WorkflowSpec.ofManifest name kv.data).mapError .invalid)
  | .error e => pure (.error (notFound name e))

/-- The names of all workflows with a live manifest, in ascending order. -/
def names : Control (Except ControlError (List String)) := do
  match ← Control.list workflowScope with
  | .error e => pure (.error (.store e))
  | .ok found =>
    pure (.ok ((found.filter fun kv => !kv.dead).filterMap fun kv => workflowName? kv.key))

/-- The status document of a workflow. -/
def status (name : String) : Control (Except ControlError (Option WorkflowStatus)) :=
  loadStatus name

/-- Every status document that can be read, in ascending order of the workflows' names. -/
def statuses : Control (Except ControlError (List WorkflowStatus)) := do
  match ← Control.list statusScope with
  | .error e => pure (.error (.store e))
  | .ok found =>
    pure (.ok ((found.filter fun kv => !kv.dead).filterMap fun kv =>
      WorkflowStatus.decode? kv.data))

end Repository

end FleetControl
