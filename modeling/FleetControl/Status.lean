import FleetControl.Workflow.Codec

/-!
# Status documents

One document for each workflow tells what is known to run: the last-applied spec, which is the
baseline of the next plan and holds only the pipelines that converged, and the status of each of
them. Pipelines whose schedule call got no answer are kept apart as unconfirmed, with the agent that
was asked, because that agent may run them.

* `WorkflowStatus.ofParts` — a document whose statuses all belong to the spec, whose unconfirmed
  pipelines all lie outside it, and each of them with an executor;
* `WorkflowStatus.decode?` — reads a document and restores those three conditions.
-/

namespace FleetControl

open JsonReader

/-- What all keys of status documents start with. -/
def statusScope : String := "status/workflows/"

/-- The key of a workflow's status document. -/
def statusKey (name : String) : String := statusScope ++ name

/-- The status of a pipeline whose schedule call got no answer. -/
def unknownStatus : String := "unknown"

/-- The status of one pipeline as its agent last reported it. -/
structure PipelineStatus where
  /-- The agent that runs it. -/
  executor : Option String
  status : String
  lastRun : Option Instant
  deriving DecidableEq, Inhabited

/-- A pipeline that was sent to an agent whose answer never came. -/
structure UnconfirmedPipeline where
  spec : PipelineSpec
  /-- The status, with the agent that was asked. -/
  status : PipelineStatus
  deriving DecidableEq, Inhabited

/-- The status document of a workflow. -/
structure WorkflowStatus where
  /-- The last-applied spec. -/
  spec : WorkflowSpec
  pipelines : KeyMap PipelineStatus
  unconfirmed : KeyMap UnconfirmedPipeline
  updatedAt : Option Instant
  deriving DecidableEq, Inhabited

/-- A member that is written only if there is a value. -/
def Json.whenSome {α : Type} (key : String) (f : α → Json) : Option α → List (String × Json)
  | some a => [(key, f a)]
  | none => []

/-- An instant as a document holds it. -/
def Json.instant (t : Instant) : Json := .text t.text

namespace PipelineStatus

/-- Nothing is known. -/
def empty : PipelineStatus := ⟨none, "", none⟩

/-- A status as a document holds it; what is not known is left out. -/
def toJson (s : PipelineStatus) : Json :=
  .object <|
    Json.whenSome "executor" .text s.executor ++ [("status", .text s.status)] ++
      Json.whenSome "last_run" Json.instant s.lastRun

/-- Read a status; every field may be missing. -/
def read : JsonReader PipelineStatus := fun depth j => do
  let depth ← inside depth
  match ← slots ["executor", "status", "last_run"] j with
  | [executor, status, lastRun] => do
    let executor ← withDefault (optional text) none depth executor
    let status ← withDefault text "" depth status
    let lastRun ← withDefault (optional instant) none depth lastRun
    some ⟨executor, status, lastRun⟩
  | _ => none

end PipelineStatus

namespace UnconfirmedPipeline

/-- An unconfirmed pipeline as a document holds it. -/
def toJson (u : UnconfirmedPipeline) : Json :=
  .object [("spec", u.spec.toJson), ("status", u.status.toJson)]

/-- Read an unconfirmed pipeline. -/
def read : JsonReader UnconfirmedPipeline := fun depth j => do
  let depth ← inside depth
  match ← slots ["spec", "status"] j with
  | [spec, status] => do
    let spec ← required PipelineSpec.read depth spec
    let status ← required PipelineStatus.read depth status
    some ⟨spec, status⟩
  | _ => none

end UnconfirmedPipeline

namespace WorkflowStatus

/-- A document from a spec, statuses and unconfirmed pipelines. Statuses of pipelines outside the
spec are dropped, and so are unconfirmed pipelines that the spec has or that name no executor. -/
def ofParts (spec : WorkflowSpec) (pipelines : KeyMap PipelineStatus)
    (unconfirmed : KeyMap UnconfirmedPipeline) (updatedAt : Option Instant) : WorkflowStatus :=
  { spec
    pipelines := pipelines.filter fun name _ => spec.pipelines.contains name
    unconfirmed := unconfirmed.filter fun name u =>
      !spec.pipelines.contains name && u.status.executor.isSome
    updatedAt }

/-- The workflow that the document is about. -/
def name (s : WorkflowStatus) : String := s.spec.name

/-- The document as JSON. -/
def toJson (s : WorkflowStatus) : Json :=
  .object <|
    [("spec", s.spec.toJson), ("pipelines", Json.ofMap PipelineStatus.toJson s.pipelines)] ++
      Json.unless s.unconfirmed.isEmpty "unconfirmed"
        (Json.ofMap UnconfirmedPipeline.toJson s.unconfirmed) ++
      Json.whenSome "updated_at" Json.instant s.updatedAt

/-- Read the fields of a document as they stand. -/
def read : JsonReader WorkflowStatus := fun depth j => do
  let depth ← inside depth
  match ← slots ["spec", "pipelines", "unconfirmed", "updated_at"] j with
  | [spec, pipelines, unconfirmed, updatedAt] => do
    let spec ← required WorkflowSpec.read depth spec
    let pipelines ← withDefault (map PipelineStatus.read) .empty depth pipelines
    let unconfirmed ← withDefault (map UnconfirmedPipeline.read) .empty depth unconfirmed
    let updatedAt ← withDefault (optional instant) none depth updatedAt
    some ⟨spec, pipelines, unconfirmed, updatedAt⟩
  | _ => none

/-- The bytes of a document. -/
def encode (s : WorkflowStatus) : Bytes := s.toJson.bytes

/-- Read a stored document. -/
def decode? (bytes : Bytes) : Option WorkflowStatus :=
  ((Json.parse bytes).bind read.run).map fun s =>
    ofParts s.spec s.pipelines s.unconfirmed s.updatedAt

end WorkflowStatus

end FleetControl
