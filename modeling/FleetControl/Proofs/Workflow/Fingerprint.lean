import FleetControl.Proofs.Workflow.Codec

/-!
# Fingerprints

A fingerprint is the document of a pipeline in sorted form. Sorting moves the members of objects and
nothing else, and the members of what is written have different names, so every reader finds in the
sorted form what it finds in the document.

* `PipelineSpec.read_fingerprint` — a pipeline reads back from its fingerprint;
* `PipelineSpec.differsFrom_eq_false_iff` — pipelines differ exactly when they are not equal.
-/

namespace FleetControl

open JsonReader

variable {α : Type}

/-! ## Sorted containers -/

namespace Json

theorem sortedItems_eq (items : List Json) : sortedItems items = items.map sorted := by
  induction items with
  | nil => rfl
  | cons j rest ih => simp [sortedItems, ih]

theorem sortedMembers_eq (members : List (String × Json)) :
    sortedMembers members = members.map fun m => (m.1, sorted m.2) := by
  induction members with
  | nil => rfl
  | cons m rest ih => simp [sortedMembers, ih]

/-- The sorted form of a list has the sorted forms of its items. -/
theorem sorted_array (write : α → Json) (l : List α) :
    (Json.array (l.map write)).sorted = .array (l.map fun a => (write a).sorted) := by
  simp [sorted, sortedItems_eq, Function.comp_def]

/-- The sorted form of a map has the sorted forms of its values, because its keys ascend already. -/
theorem sorted_ofMap (write : α → Json) (m : KeyMap α) :
    (Json.ofMap write m).sorted = Json.ofMap (fun a => (write a).sorted) m := by
  have hmap : sortedMembers (m.toList.map fun x => (x.1, write x.2)) =
      (m.mapValues fun _ a => (write a).sorted).toList := by
    simp [sortedMembers_eq, KeyMap.mapValues, KeyMap.toList, Function.comp_def]
  rw [Json.ofMap, sorted, hmap, KeyMap.ofList_toList]
  rfl

theorem sorted_texts (l : List String) : (Json.texts l).sorted = Json.texts l :=
  sorted_array Json.text l

theorem sorted_labels (m : KeyMap String) : (Json.labels m).sorted = Json.labels m :=
  sorted_ofMap Json.text m

end Json

/-! ## Sorted records -/

/-- A member of a sorted object is found by its key. -/
theorem JsonReader.member?_toList (m : KeyMap Json) (name : String) :
    member? m.toList name = some (match m.get? name with
      | some j => .given j
      | none => .absent) := by
  obtain ⟨entries, ascending⟩ := m
  simp only [KeyMap.toList, KeyMap.get?]
  induction entries with
  | nil => rfl
  | cons x rest ih =>
      obtain ⟨k, j⟩ := x
      have hp := List.pairwise_cons.1 ascending
      have hrest := ih hp.2
      by_cases h : name = k
      · subst h
        have hnone : rest.filter (fun m => m.1 == name) = [] := by
          rw [List.filter_eq_nil_iff]
          intro y hy heq
          have hlt : name < y.1 := hp.1 y hy
          rw [eq_of_beq heq] at hlt
          exact String.lt_irrefl _ hlt
        simp [member?, hnone, KeyMap.lookup]
      · have hne : (k == name) = false := by simpa using Ne.symm h
        simp only [member?, List.filter_cons, hne, Bool.false_eq_true, if_false, KeyMap.lookup, h]
        exact hrest

/-- Everything in a sorted object can be read if everything in it was written to be. -/
theorem Json.readableMembers_ofList {members : List (String × Json)} {depth : Nat}
    (h : ∀ m ∈ members, m.2.readable depth = true) :
    Json.readableMembers depth (KeyMap.ofList members).toList = true := by
  have hall : ∀ l : List (String × Json), (∀ m ∈ l, m.2.readable depth = true) →
      Json.readableMembers depth l = true := by
    intro l hl
    induction l with
    | nil => rfl
    | cons m rest ih =>
        simp [Json.readableMembers, hl m (by simp), ih fun x hx => hl x (by simp [hx])]
  apply hall
  intro m hm
  exact h _ (KeyMap.mem_of_get?_ofList ((KeyMap.mem_toList_iff _ m.1 m.2).1 hm))

namespace Trigger

theorem inverts_sorted : Inverts read (fun t => t.toJson.sorted) (fun _ => True) 1 := by
  intro depth t hdepth _
  have hreadable : t.toJson.sorted.readable depth = true := by
    cases t <;> simp [toJson, Json.sorted, Json.sortedMembers, Json.readable, hdepth,
      Json.readableMembers_ofList]
  simp only [read, hreadable, if_true]
  cases t <;> simp [toJson, Json.sorted, Json.sortedMembers, ofMembers, textMember,
    member?_toList, KeyMap.ofList, KeyMap.get?_insert]

end Trigger

namespace Task

theorem inverts_sorted : Inverts read (fun t => t.toJson.sorted) (fun _ => True) 2 := by
  intro depth t hdepth _
  have hinside := inside_of_lt (show 1 < depth by omega)
  have hcommands := Inverts.texts (depth - 1) t.commands (by omega) trivial
  have henv := Inverts.labels (depth - 1) t.env (by omega) trivial
  obtain ⟨name, image, commands, env⟩ := t
  simp only [read, hinside, toJson, Option.bind_eq_bind, Option.bind_some]
  have hnone : commands.isEmpty = true → commands = [] := List.isEmpty_iff.1
  have hempty : env.isEmpty = true → env = .empty := KeyMap.eq_empty_of_isEmpty
  cases hc : commands.isEmpty <;> cases he : env.isEmpty <;>
    simp_all [Json.unless, Json.sorted, Json.sortedMembers, Json.sorted_texts, Json.sorted_labels,
      KeyMap.ofList, KeyMap.get?_insert, slots, member?_toList, required, withDefault, text]

end Task

namespace PipelineSpec

theorem inverts_sorted : Inverts read fingerprint (fun _ => True) 4 := by
  intro depth p hdepth _
  have hinside := inside_of_lt (show 1 < depth by omega)
  have htriggers := Trigger.inverts_sorted.list (depth - 1) p.triggers (by omega)
    fun _ _ => trivial
  have htasks := Task.inverts_sorted.list (depth - 1) p.tasks (by omega) fun _ _ => trivial
  have hselector := Inverts.labels (depth - 1) p.selector (by omega) trivial
  have hdownstream := Inverts.texts (depth - 1) p.downstream (by omega) trivial
  obtain ⟨triggers, tasks, selector, downstream⟩ := p
  simp only [read, fingerprint, hinside, toJson, Option.bind_eq_bind, Option.bind_some]
  have hempty : selector.isEmpty = true → selector = .empty := KeyMap.eq_empty_of_isEmpty
  have hnone : downstream.isEmpty = true → downstream = [] := List.isEmpty_iff.1
  cases hs : selector.isEmpty <;> cases hd : downstream.isEmpty <;>
    simp_all [Json.unless, Json.sorted, Json.sortedMembers, Json.sortedItems_eq,
      Function.comp_def, Json.sorted_texts, Json.sorted_labels, KeyMap.ofList,
      KeyMap.get?_insert, slots, member?_toList, withDefault]

/-- **A pipeline reads back from its fingerprint.** -/
theorem read_fingerprint (p : PipelineSpec) : read.run p.fingerprint = some p :=
  inverts_sorted Json.levels p (by decide) trivial

/-- Pipelines with one fingerprint are equal. -/
theorem fingerprint_inj {p q : PipelineSpec} (h : p.fingerprint = q.fingerprint) : p = q := by
  have hp := read_fingerprint p
  rw [h, read_fingerprint q] at hp
  exact (Option.some.inj hp).symm

/-- **Pipelines differ exactly when they are not equal.** -/
theorem differsFrom_eq_false_iff (p q : PipelineSpec) : p.differsFrom q = false ↔ p = q := by
  rw [differsFrom, bne_eq_false_iff_eq]
  exact ⟨fingerprint_inj, fun h => h ▸ rfl⟩

end PipelineSpec

end FleetControl
