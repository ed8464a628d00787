import FleetControl.Digest
import FleetControl.Json.Printer
import FleetControl.Json.Parser
import FleetControl.Json.Reader
import FleetControl.Workflow.Spec

/-!
# Workflows as documents

Every type is written with its fields in the order of declaration; lists and maps that may be left
out are left out when empty. A trigger is an object with its kind under `type`.

* `PipelineSpec.fingerprint` — the document of a pipeline in sorted form. Agents receive it, and two
  pipelines differ exactly when their fingerprints do.
-/

namespace FleetControl

open JsonReader

/-- Members that are written only if there is something to write. -/
def Json.unless (skip : Bool) (key : String) (j : Json) : List (String × Json) :=
  if skip then [] else [(key, j)]

/-- A list of texts. -/
def Json.texts (l : List String) : Json := .array (l.map .text)

/-- A map as an object. -/
def Json.ofMap {α : Type} (f : α → Json) (m : KeyMap α) : Json :=
  .object (m.toList.map fun x => (x.1, f x.2))

/-- A map from texts to texts. -/
def Json.labels (m : KeyMap String) : Json := Json.ofMap .text m

/-! ## Triggers -/

namespace Trigger

/-- A trigger as an object whose `type` tells the kind. -/
def toJson : Trigger → Json
  | .cron schedule => .object [("type", .text "cron"), ("schedule", .text schedule)]
  | .manual => .object [("type", .text "manual")]
  | .pipeline name => .object [("type", .text "pipeline"), ("name", .text name)]

/-- The one string member with a name. -/
def textMember (name : String) (members : List (String × Json)) : Option String :=
  match member? members name with
  | some (.given (.text s)) => some s
  | _ => none

/-- A trigger from an object, by its kind. Members that the kind does not know are skipped. -/
def ofMembers (members : List (String × Json)) : Option Trigger :=
  match textMember "type" members with
  | some "cron" => (textMember "schedule" members).map .cron
  | some "manual" => some .manual
  | some "pipeline" => (textMember "name" members).map .pipeline
  | _ => none

/-- A trigger from an array that starts with its kind. -/
def ofItems : List Json → Option Trigger
  | [.text "cron", .text schedule] => some (.cron schedule)
  | [.text "manual"] => some .manual
  | [.text "pipeline", .text name] => some (.pipeline name)
  | _ => none

/-- Read a trigger. Its kind may stand anywhere, so the whole value is looked at, and everything in
it must be readable. -/
def read : JsonReader Trigger := fun depth j =>
  if j.readable depth then
    match j with
    | .object members => ofMembers members
    | .array items => ofItems items
    | _ => none
  else none

end Trigger

/-! ## Tasks -/

namespace Task

/-- A task as a manifest holds it. -/
def toJson (t : Task) : Json :=
  .object <|
    [("name", .text t.name), ("image", .text t.image)] ++
      Json.unless t.commands.isEmpty "commands" (Json.texts t.commands) ++
      Json.unless t.env.isEmpty "env" (Json.labels t.env)

/-- Read a task; commands and variables may be missing. -/
def read : JsonReader Task := fun depth j => do
  let depth ← inside depth
  match ← slots ["name", "image", "commands", "env"] j with
  | [name, image, commands, env] => do
    let name ← required text depth name
    let image ← required text depth image
    let commands ← withDefault (list text) [] depth commands
    let env ← withDefault (map text) .empty depth env
    some ⟨name, image, commands, env⟩
  | _ => none

end Task

/-! ## Pipelines -/

namespace PipelineSpec

/-- A pipeline as a manifest holds it. -/
def toJson (p : PipelineSpec) : Json :=
  .object <|
    [("triggers", .array (p.triggers.map Trigger.toJson)),
      ("tasks", .array (p.tasks.map Task.toJson))] ++
      Json.unless p.selector.isEmpty "agent_selector" (Json.labels p.selector) ++
      Json.unless p.downstream.isEmpty "downstream" (Json.texts p.downstream)

/-- Read a pipeline; every field may be missing. -/
def read : JsonReader PipelineSpec := fun depth j => do
  let depth ← inside depth
  match ← slots ["triggers", "tasks", "agent_selector", "downstream"] j with
  | [triggers, tasks, selector, downstream] => do
    let triggers ← withDefault (list Trigger.read) [] depth triggers
    let tasks ← withDefault (list Task.read) [] depth tasks
    let selector ← withDefault (map text) .empty depth selector
    let downstream ← withDefault (list text) [] depth downstream
    some ⟨triggers, tasks, selector, downstream⟩
  | _ => none

/-- The document of the pipeline in sorted form. -/
def fingerprint (p : PipelineSpec) : Json := p.toJson.sorted

/-- Twelve hexadecimal digits by which logs tell pipelines apart. -/
def digest (p : PipelineSpec) : String := Digest.short p.fingerprint.bytes

/-- Whether two pipelines have different fingerprints. -/
def differsFrom (p q : PipelineSpec) : Bool := p.fingerprint != q.fingerprint

end PipelineSpec

/-! ## Workflows -/

namespace WorkflowSpec

/-- A workflow as a manifest holds it. -/
def toJson (w : WorkflowSpec) : Json :=
  .object <|
    [("name", .text w.name)] ++
      (match w.description with | some d => [("description", .text d)] | none => []) ++
      [("pipelines", Json.ofMap PipelineSpec.toJson w.pipelines)]

/-- Read a workflow as it stands. -/
def read : JsonReader WorkflowSpec := fun depth j => do
  let depth ← inside depth
  match ← slots ["name", "description", "pipelines"] j with
  | [name, description, pipelines] => do
    let name ← required text depth name
    let description ← withDefault (optional text) none depth description
    let pipelines ← withDefault (map PipelineSpec.read) .empty depth pipelines
    some ⟨name, description, pipelines⟩
  | _ => none

/-- The bytes of a manifest. -/
def encode (w : WorkflowSpec) : Bytes := w.toJson.bytes

/-- Read a manifest. -/
def decode? (bytes : Bytes) : Option WorkflowSpec := (Json.parse bytes).bind read.run

/-- Twelve hexadecimal digits by which logs tell workflows apart; name and description do not
count. -/
def digest (w : WorkflowSpec) : String :=
  Digest.short (Json.ofMap PipelineSpec.toJson w.pipelines).bytes

end WorkflowSpec

end FleetControl
