import FleetControl.KeyMap

/-!
# Workflows

A workflow is a named set of pipelines. A pipeline has tasks, the triggers that start it, and the
labels that an agent must carry to run it; a trigger may be the completion of another pipeline of
the same workflow. `downstream` is the reverse of that relation. It is derived, and a spec whose
lists are derived is called resolved.

* `WorkflowSpec.resolved` — the same workflow with every `downstream` list derived from the
  triggers.
-/

namespace FleetControl

/-- What starts a pipeline. -/
inductive Trigger where
  /-- A cron schedule. -/
  | cron (schedule : String)
  /-- Started on demand only. -/
  | manual
  /-- The completion of another pipeline of the workflow. -/
  | pipeline (name : String)
  deriving DecidableEq, Repr, Inhabited

/-- The pipeline whose completion is waited for, if the trigger is of that kind. -/
def Trigger.predecessor? : Trigger → Option String
  | .pipeline name => some name
  | _ => none

/-- One unit of work of a pipeline. -/
structure Task where
  name : String
  /-- The container image that runs it. -/
  image : String
  /-- Commands, run in order. -/
  commands : List String
  /-- Environment variables. -/
  env : KeyMap String
  deriving DecidableEq, Inhabited

/-- The desired state of one pipeline. -/
structure PipelineSpec where
  triggers : List Trigger
  tasks : List Task
  /-- Labels that an agent must carry to run the pipeline. -/
  selector : KeyMap String
  /-- Pipelines that this one triggers; derived. -/
  downstream : List String
  deriving DecidableEq, Inhabited

namespace PipelineSpec

/-- A pipeline without triggers or tasks. -/
def empty : PipelineSpec := ⟨[], [], .empty, []⟩

/-- The pipelines that this one waits for, in the order of its triggers. -/
def predecessors (p : PipelineSpec) : List String := p.triggers.filterMap Trigger.predecessor?

end PipelineSpec

/-- The desired state of a workflow. -/
structure WorkflowSpec where
  name : String
  description : Option String
  pipelines : KeyMap PipelineSpec
  deriving DecidableEq, Inhabited

namespace WorkflowSpec

/-- A workflow without pipelines. -/
def empty (name : String) : WorkflowSpec := ⟨name, none, .empty⟩

/-- The pipelines that wait for a pipeline, in ascending order. -/
def downstreamOf (w : WorkflowSpec) (name : String) : List String :=
  (w.pipelines.toList.filter fun p => p.2.predecessors.contains name).map (·.1)

/-- The workflow with every downstream list derived from the triggers, whatever it was before. -/
def resolved (w : WorkflowSpec) : WorkflowSpec :=
  { w with
    pipelines := w.pipelines.mapValues fun name p => { p with downstream := w.downstreamOf name } }

/-- The workflow as a client hands it in: without derived lists. -/
def underived (w : WorkflowSpec) : WorkflowSpec :=
  { w with pipelines := w.pipelines.mapValues fun _ p => { p with downstream := [] } }

end WorkflowSpec

/-! ## Keys -/

/-- What all manifest keys start with. -/
def workflowScope : String := "workflows/"

/-- The key of a workflow's manifest. -/
def workflowKey (name : String) : String := workflowScope ++ name

/-- The name in a key under a scope; there is none if it would be empty. -/
def nameUnder? (scope key : String) : Option String :=
  if scope.toList.isPrefixOf key.toList && scope.length < key.length then
    some (String.ofList (key.toList.drop scope.length))
  else none

/-- The workflow whose manifest a key holds. -/
def workflowName? (key : String) : Option String := nameUnder? workflowScope key

end FleetControl
