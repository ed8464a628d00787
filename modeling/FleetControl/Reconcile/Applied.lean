import FleetControl.Plan
import FleetControl.Reconcile.Report
import FleetControl.Scheduler

/-!
# What is applied

The working copy of a status document during one pass. Each action reads its input from it and folds
its outcome into it:

* `Applied.input` — the spec and the status that an action works on;
* `Applied.fold` — the copy after an action: a success moves the pipeline into the last-applied spec
  or out of it, a failure changes nothing, except that a schedule that left an executor behind is
  remembered as unconfirmed.
-/

namespace FleetControl

/-- The working copy of a status document. -/
structure Applied where
  /-- The last-applied spec, resolved. -/
  spec : WorkflowSpec
  pipelines : KeyMap PipelineStatus
  unconfirmed : KeyMap UnconfirmedPipeline
  deriving DecidableEq, Inhabited

namespace Applied

/-- Nothing is applied. -/
def empty (name : String) : Applied := ⟨.empty name, .empty, .empty⟩

/-- The working copy of a document. -/
def ofStatus (s : WorkflowStatus) : Applied := ⟨s.spec.resolved, s.pipelines, s.unconfirmed⟩

/-- The working copy of the document that was found, if any. -/
def ofStatus? (name : String) : Option WorkflowStatus → Applied
  | some s => ofStatus s
  | none => empty name

/-- The document of a working copy, as of an instant. -/
def toStatus (a : Applied) (updatedAt : Option Instant) : WorkflowStatus :=
  .ofParts a.spec a.pipelines a.unconfirmed updatedAt

/-- The spec that an action sends. -/
def specFor (a : Applied) (desired : WorkflowSpec) (planned : PlannedAction) :
    Option PipelineSpec :=
  match planned.action with
  | .schedule | .update => desired.pipelines.get? planned.pipeline
  | .remove =>
    a.spec.pipelines.get? planned.pipeline <|>
      (a.unconfirmed.get? planned.pipeline).map (·.spec)

/-- The status that an action starts from. -/
def statusFor (a : Applied) (planned : PlannedAction) : PipelineStatus :=
  let recorded := a.pipelines.get? planned.pipeline
  let attempted := (a.unconfirmed.get? planned.pipeline).map (·.status)
  (match planned.action with
    | .schedule => attempted
    | .update => recorded
    | .remove => recorded <|> attempted).getD .empty

/-- The working copy after an action has succeeded. -/
def succeed (a : Applied) (planned : PlannedAction) (spec : PipelineSpec)
    (status : PipelineStatus) : Applied :=
  let name := planned.pipeline
  match planned.action with
  | .schedule | .update =>
    { spec := { a.spec with pipelines := a.spec.pipelines.insert name spec }
      pipelines := a.pipelines.insert name status
      unconfirmed := a.unconfirmed.erase name }
  | .remove =>
    { spec := { a.spec with pipelines := a.spec.pipelines.erase name }
      pipelines := a.pipelines.erase name
      unconfirmed := a.unconfirmed.erase name }

/-- The working copy after an action has failed. -/
def fail (a : Applied) (planned : PlannedAction) (spec : PipelineSpec)
    (status : PipelineStatus) : Applied :=
  if planned.action = .schedule ∧ status.executor.isSome then
    { a with unconfirmed := a.unconfirmed.insert planned.pipeline ⟨spec, status⟩ }
  else a

/-- The working copy after an action. -/
def fold (a : Applied) (planned : PlannedAction) (spec : PipelineSpec) :
    Scheduler.Result → Applied
  | (.ok _, status) => a.succeed planned spec status
  | (.error _, status) => a.fail planned spec status

/-- Carry out one action and fold its outcome in. -/
def apply (deadline : Span) (workflow : String) (desired : WorkflowSpec) (planned : PlannedAction)
    (a : Applied) : Control (Except ControlError Unit × Applied) :=
  match a.specFor desired planned with
  | none =>
    pure (.error (.other ("pipeline " ++ planned.pipeline ++ " missing from plan input")), a)
  | some spec => do
    let result ← Scheduler.dispatch deadline planned.action workflow planned.pipeline spec
      (a.statusFor planned)
    pure (result.1.mapError .agent, a.fold planned spec result)

end Applied

/-- What came of a list of actions. -/
structure Attempt where
  applied : List PlannedAction
  failures : List DispatchFailure
  state : Applied

namespace Attempt

/-- Add the outcome of one action in front. -/
def cons (planned : PlannedAction) (outcome : Except ControlError Unit) (rest : Attempt) :
    Attempt :=
  match outcome with
  | .ok () => { rest with applied := planned :: rest.applied }
  | .error e =>
    { rest with failures := ⟨planned.pipeline, planned.action, e.message⟩ :: rest.failures }

/-- Carry out actions one after the other; a failure does not keep the later ones from being
tried. -/
def all (deadline : Span) (workflow : String) (desired : WorkflowSpec) :
    List PlannedAction → Applied → Control Attempt
  | [], a => pure ⟨[], [], a⟩
  | planned :: rest, a => do
    let (outcome, a) ← a.apply deadline workflow desired planned
    let attempt ← all deadline workflow desired rest a
    pure (attempt.cons planned outcome)

/-- The report of the attempt. -/
def report (attempt : Attempt) (workflow : String) (statusWritten : Bool) : ReconcileReport :=
  ⟨workflow, attempt.applied, attempt.failures, statusWritten⟩

end Attempt

end FleetControl
