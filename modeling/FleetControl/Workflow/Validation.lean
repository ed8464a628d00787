import FleetControl.Cron
import FleetControl.Text.Quoted
import FleetControl.Workflow.Codec

/-!
# Valid workflows

What a manifest must satisfy before anything is done about it, and which fault is named when there
are several: the workflow's name comes first, then the pipelines in ascending order, each with its
name, its triggers and its tasks in turn, and the cycle check comes last.

* `WorkflowSpec.validate` — accepts a workflow or names its first fault;
* `WorkflowSpec.checkAcyclic` — a depth-first walk against the triggers;
* `WorkflowSpec.ofManifest` — a stored manifest as the resolved workflow that is to be run.
-/

namespace FleetControl

/-- Why a manifest is refused. -/
inductive ValidationError where
  /-- The manifest is no JSON document of a workflow. -/
  | malformed
  /-- A name is blank or contains a slash. -/
  | invalidName (name : String)
  /-- The manifest is stored under another name. -/
  | nameMismatch (key manifest : String)
  | invalidSchedule (pipeline schedule : String) (fault : Cron.Fault)
  /-- A trigger names a pipeline that the workflow does not have. -/
  | unknownTarget (pipeline target : String)
  | selfTrigger (pipeline : String)
  | triggerCycle (pipeline : String)
  | missingImage (pipeline task : String)
  | duplicateTask (pipeline task : String)
  deriving DecidableEq, Repr

/-- The fault in words. -/
def ValidationError.message : ValidationError → String
  | .malformed => "Malformed manifest"
  | .invalidName name => "Invalid name " ++ Text.quoted name
  | .nameMismatch key manifest =>
    "Manifest name " ++ Text.quoted manifest ++ " does not match key name " ++ Text.quoted key
  | .invalidSchedule pipeline schedule fault =>
    "Pipeline " ++ pipeline ++ ": invalid cron schedule " ++ Text.quoted schedule ++ ": " ++
      fault.message
  | .unknownTarget pipeline target =>
    "Pipeline " ++ pipeline ++ ": trigger references unknown pipeline " ++ target
  | .selfTrigger pipeline => "Pipeline " ++ pipeline ++ " triggers itself"
  | .triggerCycle pipeline => "Pipeline triggers form a cycle through " ++ pipeline
  | .missingImage pipeline task => "Pipeline " ++ pipeline ++ ": task " ++ task ++ " has no image"
  | .duplicateTask pipeline task => "Pipeline " ++ pipeline ++ ": duplicate task " ++ task

/-- Names are not blank and contain no slash. -/
def checkName (name : String) : Except ValidationError Unit :=
  if Text.isAllBlank name || name.toList.contains '/' then .error (.invalidName name) else .ok ()

namespace WorkflowSpec

/-- A trigger of a pipeline. -/
def checkTrigger (w : WorkflowSpec) (pipeline : String) : Trigger → Except ValidationError Unit
  | .cron schedule =>
    match Cron.check schedule with
    | .ok () => .ok ()
    | .error fault => .error (.invalidSchedule pipeline schedule fault)
  | .manual => .ok ()
  | .pipeline target =>
    if target = pipeline then .error (.selfTrigger pipeline)
    else if w.pipelines.contains target then .ok ()
    else .error (.unknownTarget pipeline target)

/-- The tasks of a pipeline, after those with the names in `seen`. -/
def checkTasks (pipeline : String) (seen : List String) : List Task → Except ValidationError Unit
  | [] => .ok ()
  | t :: rest => do
    checkName t.name
    if Text.isAllBlank t.image then .error (.missingImage pipeline t.name)
    else if seen.contains t.name then .error (.duplicateTask pipeline t.name)
    else checkTasks pipeline (t.name :: seen) rest

/-- A pipeline: its name, its triggers, its tasks. -/
def checkPipeline (w : WorkflowSpec) (name : String) (p : PipelineSpec) :
    Except ValidationError Unit := do
  checkName name
  p.triggers.forM (w.checkTrigger name)
  checkTasks name [] p.tasks

/-- How far the walk has come with a pipeline. -/
inductive Mark where
  /-- Something below it is being visited. -/
  | visiting
  /-- Everything that it waits for has been visited. -/
  | done
  deriving DecidableEq, Repr

/-- The pipelines that a pipeline waits for; an unknown one waits for nothing. -/
def predecessorsOf (w : WorkflowSpec) (name : String) : List String :=
  match w.pipelines.get? name with
  | some p => p.predecessors
  | none => []

/-- Visit a pipeline and all that it waits for, against the direction of the triggers. A pipeline
that is met again while it is being visited lies on a cycle. -/
def visit (w : WorkflowSpec) : Nat → String → KeyMap Mark → Except ValidationError (KeyMap Mark)
  | 0, _, marks => .ok marks
  | fuel + 1, name, marks =>
    match marks.get? name with
    | some .done => .ok marks
    | some .visiting => .error (.triggerCycle name)
    | none => do
      let marks ← (w.predecessorsOf name).foldlM (fun marks u => visit w fuel u marks)
        (marks.insert name .visiting)
      .ok (marks.insert name .done)

/-- The pipeline triggers form no cycle. A path without repetition has at most one name more than
there are pipelines, which bounds the depth of the walk. -/
def checkAcyclic (w : WorkflowSpec) : Except ValidationError Unit := do
  let _ ← w.pipelines.keys.foldlM (fun marks name => w.visit (w.pipelines.size + 2) name marks)
    KeyMap.empty
  .ok ()

/-- Accept a workflow or name its first fault. -/
def validate (w : WorkflowSpec) : Except ValidationError Unit := do
  checkName w.name
  w.pipelines.toList.forM fun p => w.checkPipeline p.1 p.2
  w.checkAcyclic

/-- The workflow that a manifest stored under a name stands for: decoded, of that name, valid, and
with its downstream lists derived anew. -/
def ofManifest (name : String) (bytes : Bytes) : Except ValidationError WorkflowSpec :=
  match decode? bytes with
  | none => .error .malformed
  | some w =>
    if w.name ≠ name then .error (.nameMismatch name w.name)
    else do
      w.validate
      .ok w.resolved

end WorkflowSpec

end FleetControl
