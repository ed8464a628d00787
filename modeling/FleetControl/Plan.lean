import FleetControl.Workflow.Codec

/-!
# Plans

A plan is what has to be done about the pipelines of a workflow: the difference between the desired
spec and the one that was applied last.

* `plan` — at most one action for each pipeline, in ascending order of their names. Pipelines that
  are equal in both need nothing.
-/

namespace FleetControl

/-- What to do about one pipeline. -/
inductive PipelineAction where
  /-- Place it on an agent. -/
  | schedule
  /-- Replace its spec on the agent that runs it. -/
  | update
  /-- Take it off the agent that runs it. -/
  | remove
  deriving DecidableEq, Repr, Inhabited

/-- The action in a word. -/
def PipelineAction.word : PipelineAction → String
  | .schedule => "schedule"
  | .update => "update"
  | .remove => "remove"

/-- An action and the pipeline that it is about. -/
structure PlannedAction where
  pipeline : String
  action : PipelineAction
  deriving DecidableEq, Repr, Inhabited

namespace PlannedAction

/-- The action as a report lists it. -/
def toJson (a : PlannedAction) : Json :=
  .object [("pipeline", .text a.pipeline), ("action", .text a.action.word)]

/-- The action and the pipeline in words. -/
def words (a : PlannedAction) : String := a.action.word ++ " " ++ a.pipeline

/-- Put an action in front of the first one whose pipeline does not come before its own. -/
def place (a : PlannedAction) : List PlannedAction → List PlannedAction
  | [] => [a]
  | b :: rest => if b.pipeline < a.pipeline then b :: place a rest else a :: b :: rest

/-- Actions in ascending order of their pipelines; those about one pipeline keep their order. -/
def sort (actions : List PlannedAction) : List PlannedAction := actions.foldr place []

end PlannedAction

/-- What a desired pipeline needs, given the one of that name that was applied last. -/
def PipelineSpec.needs (desired : PipelineSpec) : Option PipelineSpec → Option PipelineAction
  | none => some .schedule
  | some applied => if desired.differsFrom applied then some .update else none

/-- The actions that turn the pipelines applied last into the desired ones. -/
def plan (desired applied : WorkflowSpec) : List PlannedAction :=
  let wanted := desired.pipelines.toList.filterMap fun p =>
    (p.2.needs (applied.pipelines.get? p.1)).map fun a => ⟨p.1, a⟩
  let unwanted := (applied.pipelines.keys.filter fun name => !desired.pipelines.contains name).map
    fun name => ⟨name, .remove⟩
  PlannedAction.sort (wanted ++ unwanted)

end FleetControl
