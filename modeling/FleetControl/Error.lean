import FleetControl.Config
import FleetControl.Plan
import FleetControl.Store.Basic
import FleetControl.Workflow.Validation

/-!
# Errors of the control plane

`RuntimeError` is what the reconciliation runtime fails with, `ControlError` what the control plane
fails with. Both wrap the errors of the parts below them, and `message` puts the wrapping into
words.
-/

namespace FleetControl

/-- Why the reconciliation runtime failed. -/
inductive RuntimeError where
  | store (e : StoreError)
  | controllerNotFound (name : String)
  /-- The task that ran a controller came to a bad end. -/
  | controllerTask (name details : String)
  | other (text : String)
  deriving DecidableEq, Repr

/-- The error in words. -/
def RuntimeError.message : RuntimeError → String
  | .store e => "Store error: " ++ e.message
  | .controllerNotFound name => "Controller not found: " ++ name
  | .controllerTask name details => "Controller '" ++ name ++ "' task failed: " ++ details
  | .other text => text

/-- An action that failed, and why. -/
structure DispatchFailure where
  pipeline : String
  action : PipelineAction
  error : String
  deriving DecidableEq, Repr

namespace DispatchFailure

/-- The failure in words. -/
def words (f : DispatchFailure) : String := f.action.word ++ " " ++ f.pipeline ++ ": " ++ f.error

/-- The failure as a report lists it. -/
def toJson (f : DispatchFailure) : Json :=
  .object [("pipeline", .text f.pipeline), ("action", .text f.action.word),
    ("error", .text f.error)]

end DispatchFailure

/-- Why the control plane failed. -/
inductive ControlError where
  | config (e : ConfigError)
  | runtime (e : RuntimeError)
  | store (e : StoreError)
  /-- A document could not be read. -/
  | json
  | invalid (e : ValidationError)
  | agent (e : AgentError)
  /-- Some actions of a workflow failed. -/
  | dispatch (workflow : String) (failures : List DispatchFailure)
  | workflowNotFound (name : String)
  | other (text : String)
  deriving DecidableEq, Repr

/-- The error in words. -/
def ControlError.message : ControlError → String
  | .config e => "Configuration error: " ++ e.message
  | .runtime e => "Runtime error: " ++ e.message
  | .store e => "Store error: " ++ e.message
  | .json => "JSON error"
  | .invalid e => "Invalid workflow: " ++ e.message
  | .agent e => "Agent error: " ++ e.message
  | .dispatch workflow failures =>
    "Workflow " ++ workflow ++ ": " ++ toString failures.length ++
      " pipeline action(s) failed: " ++ "; ".intercalate (failures.map DispatchFailure.words)
  | .workflowNotFound name => "Workflow not found: " ++ name
  | .other text => text

end FleetControl
