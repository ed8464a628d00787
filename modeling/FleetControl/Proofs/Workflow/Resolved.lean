import FleetControl.Proofs.KeyMap
import FleetControl.Workflow.Spec
import Mathlib.Data.List.Sort

/-!
# Resolved workflows

A resolved workflow differs from the workflow only in the derived lists, and those tell exactly who
waits for whom. Two pipelines with the same list in two workflows therefore have the same waiters. Who
waits for whom is said with the triggers themselves; the predecessors that are computed from them only
have to agree with it.

* `PipelineSpec.mem_predecessors` — the predecessors of a pipeline are those that its triggers name;
* `WorkflowSpec.Waits` — a pipeline of the workflow has a trigger on another;
* `WorkflowSpec.mem_downstreamOf` — the derived list of a pipeline is that of its waiters;
* `WorkflowSpec.downstreamOf_eq_iff` — lists are equal exactly when the waiters are the same;
* `WorkflowSpec.pipeline_eq_iff` — what makes two pipelines of resolved workflows equal.
-/

namespace FleetControl

/-- Two pipelines have the same triggers, tasks and selector. -/
structure PipelineSpec.Alike (d d' : PipelineSpec) : Prop where
  triggers : d.triggers = d'.triggers
  tasks : d.tasks = d'.tasks
  selector : d.selector = d'.selector

theorem PipelineSpec.Alike.symm {d d' : PipelineSpec} (h : d.Alike d') : d'.Alike d :=
  ⟨h.triggers.symm, h.tasks.symm, h.selector.symm⟩

theorem PipelineSpec.Alike.trans {d d' d'' : PipelineSpec} (h : d.Alike d') (h' : d'.Alike d'') :
    d.Alike d'' :=
  ⟨h.triggers.trans h'.triggers, h.tasks.trans h'.tasks, h.selector.trans h'.selector⟩

/-- The derived list of a pipeline does not matter to that. -/
theorem PipelineSpec.alike_derived (d : PipelineSpec) (downstream : List String) :
    d.Alike { d with downstream } := ⟨rfl, rfl, rfl⟩

/-- The predecessors of a pipeline are those that its triggers name. -/
theorem PipelineSpec.mem_predecessors (d : PipelineSpec) (p : String) :
    p ∈ d.predecessors ↔ .pipeline p ∈ d.triggers := by
  rw [predecessors, List.mem_filterMap]
  constructor
  · rintro ⟨t, ht, hp⟩
    cases t with
    | cron | manual => cases hp
    | pipeline name =>
        cases hp
        exact ht
  · exact fun h => ⟨_, h, rfl⟩

namespace WorkflowSpec

/-- A workflow without a description. -/
def ofPipelines (name : String) (pipelines : List (String × PipelineSpec)) : WorkflowSpec :=
  ⟨name, none, .ofList pipelines⟩

/-- A pipeline of the workflow waits for another: it has a trigger on it. -/
def Waits (w : WorkflowSpec) (q p : String) : Prop :=
  ∃ d, w.pipelines.get? q = some d ∧ .pipeline p ∈ d.triggers

/-- A pipeline waits for its predecessors. -/
theorem waits_iff_mem_predecessors (w : WorkflowSpec) (q p : String) :
    w.Waits q p ↔ ∃ d, w.pipelines.get? q = some d ∧ p ∈ d.predecessors := by
  simp only [Waits, PipelineSpec.mem_predecessors]

theorem get?_resolved (w : WorkflowSpec) (p : String) :
    w.resolved.pipelines.get? p =
      (w.pipelines.get? p).map fun d => { d with downstream := w.downstreamOf p } :=
  KeyMap.get?_mapValues _ _ _

theorem contains_resolved (w : WorkflowSpec) (p : String) :
    w.resolved.pipelines.contains p = w.pipelines.contains p :=
  KeyMap.contains_mapValues _ _ _

/-- What a pipeline waits for is a matter of its triggers. -/
theorem waits_congr {w w' : WorkflowSpec} {q : String}
    (h : (w.pipelines.get? q).map (·.triggers) = (w'.pipelines.get? q).map (·.triggers))
    (p : String) : w.Waits q p ↔ w'.Waits q p := by
  have htriggers : ∀ v : WorkflowSpec, v.Waits q p ↔
      ∃ triggers, (v.pipelines.get? q).map (·.triggers) = some triggers ∧
        .pipeline p ∈ triggers := by
    intro v
    simp [Waits, Option.map_eq_some_iff]
  rw [htriggers, htriggers, h]

/-- Resolving changes nothing about who waits for whom. -/
theorem waits_resolved (w : WorkflowSpec) (q p : String) :
    w.resolved.Waits q p ↔ w.Waits q p := by
  refine waits_congr ?_ p
  rw [get?_resolved, Option.map_map]
  rfl

/-- The derived list of a pipeline is that of its waiters. -/
theorem mem_downstreamOf (w : WorkflowSpec) (q p : String) :
    q ∈ w.downstreamOf p ↔ w.Waits q p := by
  rw [waits_iff_mem_predecessors]
  unfold downstreamOf
  constructor
  · intro h
    obtain ⟨x, hx, rfl⟩ := List.mem_map.1 h
    obtain ⟨hmem, hp⟩ := List.mem_filter.1 hx
    exact ⟨x.2, (KeyMap.mem_toList_iff _ x.1 x.2).1 hmem, by simpa using hp⟩
  · rintro ⟨d, hd, hp⟩
    exact List.mem_map.2 ⟨(q, d), List.mem_filter.2 ⟨(KeyMap.mem_toList_iff _ q d).2 hd,
      by simpa using hp⟩, rfl⟩

/-- The derived lists ascend. -/
theorem pairwise_downstreamOf (w : WorkflowSpec) (p : String) :
    (w.downstreamOf p).Pairwise (· < ·) :=
  List.pairwise_map.2 (w.pipelines.ascending.filter _)

/-- **Derived lists are equal exactly when the waiters are the same.** -/
theorem downstreamOf_eq_iff (w w' : WorkflowSpec) (p : String) :
    w.downstreamOf p = w'.downstreamOf p ↔ ∀ q, w.Waits q p ↔ w'.Waits q p := by
  constructor
  · intro h q
    rw [← mem_downstreamOf, h, mem_downstreamOf]
  · intro h
    refine (w.pairwise_downstreamOf p).eq_of_mem_iff (w'.pairwise_downstreamOf p) ?_
    intro q
    rw [mem_downstreamOf, mem_downstreamOf, h q]

/-- Resolving a workflow again changes nothing. -/
theorem resolved_resolved (w : WorkflowSpec) : w.resolved.resolved = w.resolved := by
  have hsame : ∀ p, w.resolved.downstreamOf p = w.downstreamOf p := by
    intro p
    rw [downstreamOf_eq_iff]
    exact fun q => w.waits_resolved q p
  have hpipelines : w.resolved.resolved.pipelines = w.resolved.pipelines := by
    apply KeyMap.ext_get?
    intro p
    rw [get?_resolved, get?_resolved, hsame]
    cases w.pipelines.get? p <;> rfl
  exact congrArg (WorkflowSpec.mk w.name w.description) hpipelines

/-- The derived list of a pipeline of a resolved workflow. -/
theorem downstream_of_resolved {w : WorkflowSpec} (hw : w.resolved = w) {p : String}
    {d : PipelineSpec} (hd : w.pipelines.get? p = some d) : d.downstream = w.downstreamOf p := by
  rw [← hw, get?_resolved] at hd
  obtain ⟨d', -, rfl⟩ := Option.map_eq_some_iff.1 hd
  rfl

/-- **Pipelines of resolved workflows are equal** exactly when they are alike and the same pipelines
wait for them. -/
theorem pipeline_eq_iff {w w' : WorkflowSpec} (hw : w.resolved = w) (hw' : w'.resolved = w')
    {p : String} {d d' : PipelineSpec} (hd : w.pipelines.get? p = some d)
    (hd' : w'.pipelines.get? p = some d') :
    d = d' ↔ d.Alike d' ∧ ∀ q, w.Waits q p ↔ w'.Waits q p := by
  rw [← downstreamOf_eq_iff, ← downstream_of_resolved hw hd, ← downstream_of_resolved hw' hd']
  obtain ⟨triggers, tasks, selector, downstream⟩ := d
  obtain ⟨triggers', tasks', selector', downstream'⟩ := d'
  simp only [PipelineSpec.mk.injEq]
  constructor
  · rintro ⟨h₁, h₂, h₃, h₄⟩
    exact ⟨⟨h₁, h₂, h₃⟩, h₄⟩
  · rintro ⟨⟨h₁, h₂, h₃⟩, h₄⟩
    exact ⟨h₁, h₂, h₃, h₄⟩

end WorkflowSpec

end FleetControl
