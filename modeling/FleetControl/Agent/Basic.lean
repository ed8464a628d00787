import FleetControl.Json.Printer
import FleetControl.Json.Reader
import FleetControl.Text.Quoted
import FleetControl.Workflow.Codec
import FleetControl.Status

/-!
# Agents

An agent runs pipelines. The control plane knows it by a name and labels, sends it requests to
schedule, update or remove a pipeline, and gets a report or an error back; it may also ask for the
agent's health.
-/

namespace FleetControl

open JsonReader

/-! ## Errors -/

/-- Why a call to an agent failed. -/
inductive AgentError where
  /-- There is no connection to the agent. -/
  | unavailable (agent : String)
  /-- No agent may run the pipeline. -/
  | noCandidate (pipeline : String)
  /-- The agent did not answer before the deadline. -/
  | timeout (agent : String) (deadline : Span)
  /-- The agent refused. -/
  | rejected (agent reason : String)
  /-- A document could not be read or written. -/
  | json
  | other (text : String)
  deriving DecidableEq, Repr, Inhabited

/-- The error in words. -/
def AgentError.message : AgentError → String
  | .unavailable agent => "Agent unavailable: " ++ agent
  | .noCandidate pipeline => "No agent available for pipeline " ++ pipeline
  | .timeout agent deadline => "Agent " ++ agent ++ " did not answer within " ++ deadline.text
  | .rejected agent reason => "Agent " ++ agent ++ " rejected the request: " ++ reason
  | .json => "JSON error"
  | .other text => "Other: " ++ text

/-! ## Directory entries -/

/-- An agent as the directory lists it. -/
structure AgentInfo where
  name : String
  labels : KeyMap String
  deriving DecidableEq, Inhabited

namespace AgentInfo

/-- Whether the agent carries every label of a selector. -/
def carries (a : AgentInfo) (selector : KeyMap String) : Bool :=
  selector.toList.all fun label => a.labels.get? label.1 == some label.2

/-- An agent as the directory lists it. -/
def toJson (a : AgentInfo) : Json :=
  .object [("name", .text a.name), ("labels", Json.labels a.labels)]

/-- Read an agent; the labels may be missing. -/
def read : JsonReader AgentInfo := fun depth j => do
  let depth ← inside depth
  match ← slots ["name", "labels"] j with
  | [name, labels] => do
    let name ← required text depth name
    let labels ← withDefault (map text) .empty depth labels
    some ⟨name, labels⟩
  | _ => none

end AgentInfo

/-! ## Requests and reports -/

/-- A request about one pipeline. -/
structure PipelineRequest where
  workflow : String
  pipeline : String
  /-- The pipeline's spec as a document in sorted form. -/
  spec : Json
  deriving DecidableEq, Inhabited

namespace PipelineRequest

/-- A request as a document. -/
def toJson (r : PipelineRequest) : Json :=
  .object [("workflow", .text r.workflow), ("pipeline", .text r.pipeline), ("spec", r.spec)]

/-- Read a request. -/
def read : JsonReader PipelineRequest := fun depth j => do
  let depth ← inside depth
  match ← slots ["workflow", "pipeline", "spec"] j with
  | [workflow, pipeline, spec] => do
    let workflow ← required text depth workflow
    let pipeline ← required text depth pipeline
    let spec ← required any depth spec
    some ⟨workflow, pipeline, spec⟩
  | _ => none

end PipelineRequest

/-- An agent's answer to a request. -/
structure PipelineReport where
  /-- The agent that is now responsible for the pipeline. -/
  executor : String
  status : String
  lastRun : Option Instant
  deriving DecidableEq, Inhabited

/-- A value or `null`. -/
def Json.orNull {α : Type} (f : α → Json) : Option α → Json
  | some a => f a
  | none => .null

namespace PipelineReport

/-- A report as a document. -/
def toJson (r : PipelineReport) : Json :=
  .object [("executor", .text r.executor), ("status", .text r.status),
    ("last_run", Json.orNull Json.instant r.lastRun)]

/-- Read a report. -/
def read : JsonReader PipelineReport := fun depth j => do
  let depth ← inside depth
  match ← slots ["executor", "status", "last_run"] j with
  | [executor, status, lastRun] => do
    let executor ← required text depth executor
    let status ← required text depth status
    let lastRun ← nullable instant depth lastRun
    some ⟨executor, status, lastRun⟩
  | _ => none

end PipelineReport

/-! ## Health -/

/-- Whether an agent takes work. -/
inductive HealthState where
  | serving
  | notServing
  | unreachable
  deriving DecidableEq, Repr, Inhabited

namespace HealthState

/-- The state in a word. -/
def word : HealthState → String
  | .serving => "serving"
  | .notServing => "not_serving"
  | .unreachable => "unreachable"

/-- The state of a word. -/
def ofWord? : String → Option HealthState
  | "serving" => some .serving
  | "not_serving" => some .notServing
  | "unreachable" => some .unreachable
  | _ => none

/-- Read a state: its word, or an object whose one member is the word with `null`. -/
def read : JsonReader HealthState
  | _, .text s => ofWord? s
  | depth, .object [(k, .null)] => (inside depth).bind fun _ => ofWord? k
  | _, _ => none

end HealthState

/-- The health of an agent. -/
structure AgentHealth where
  agent : String
  state : HealthState
  /-- How many pipelines it runs, if that is known. -/
  pipelines : Option Nat
  message : Option String
  deriving DecidableEq, Inhabited

namespace AgentHealth

/-- The health of an agent that could not be asked. -/
def unreachable (agent reason : String) : AgentHealth := ⟨agent, .unreachable, none, some reason⟩

/-- The health of an agent as a document. -/
def toJson (h : AgentHealth) : Json :=
  .object [("agent", .text h.agent), ("state", .text h.state.word),
    ("pipelines", Json.orNull (fun n => .number (.natural n)) h.pipelines),
    ("message", Json.orNull .text h.message)]

/-- Read the health of an agent. -/
def read : JsonReader AgentHealth := fun depth j => do
  let depth ← inside depth
  match ← slots ["agent", "state", "pipelines", "message"] j with
  | [agent, state, pipelines, message] => do
    let agent ← required text depth agent
    let state ← required HealthState.read depth state
    let pipelines ← nullable (natural JsonNumber.maxNatural) depth pipelines
    let message ← nullable text depth message
    some ⟨agent, state, pipelines, message⟩
  | _ => none

end AgentHealth

end FleetControl
