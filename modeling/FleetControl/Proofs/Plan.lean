import FleetControl.Proofs.Workflow.Fingerprint
import FleetControl.Proofs.Workflow.Resolved
import FleetControl.Reconcile.Workflow

/-!
# What a plan holds

Sorting keeps the actions, so what a pass attempts about a pipeline can be told from that pipeline
alone: what the manifest wants of it, what was applied last, and whether it is unconfirmed. At most
one action is about any pipeline, as long as no pipeline is both applied and unconfirmed, which holds
of every document that was read.

* `Applied.needs` — what a pass attempts about a pipeline;
* `Applied.Needed` — why it does;
* `mem_manifestActions_iff` — the actions of a pass are those;
* `nodup_manifestActions`, `nodup_removalActions` — at most one for each pipeline.
-/

namespace FleetControl

/-! ## Sorting -/

namespace PlannedAction

theorem place_perm (a : PlannedAction) (l : List PlannedAction) : (place a l).Perm (a :: l) := by
  induction l with
  | nil => exact .refl _
  | cons b rest ih =>
      unfold place
      split
      · exact (ih.cons b).trans (.swap a b rest)
      · exact .refl _

/-- Sorting keeps the actions. -/
theorem sort_perm (l : List PlannedAction) : (sort l).Perm l := by
  induction l with
  | nil => exact .refl _
  | cons a rest ih => exact (place_perm a (sort rest)).trans (ih.cons a)

end PlannedAction

/-! ## The actions of a pass over a manifest -/

/-- What the manifest and the last-applied spec make of a pipeline. -/
def Applied.needs (a : Applied) (desired : WorkflowSpec) (p : String) : Option PipelineAction :=
  match desired.pipelines.get? p with
  | some d => d.needs (a.spec.pipelines.get? p)
  | none =>
    if a.spec.pipelines.contains p || a.unconfirmed.contains p then some .remove else none

/-- Nothing is needed for a pipeline exactly if what was applied last is what is desired. -/
theorem PipelineSpec.needs_eq_none_iff (d : PipelineSpec) (applied : Option PipelineSpec) :
    d.needs applied = none ↔ applied = some d := by
  cases applied with
  | none => simp [needs]
  | some d' =>
      simp only [needs, ite_eq_right_iff, reduceCtorEq, imp_false, Bool.not_eq_true,
        differsFrom_eq_false_iff, Option.some.injEq]
      exact eq_comm

namespace Applied

variable {a : Applied} {desired : WorkflowSpec} {p : String}

/-- Why an action is needed. -/
inductive Needed (a : Applied) (desired : WorkflowSpec) (p : String) : PipelineAction → Prop where
  /-- A desired pipeline is not applied. -/
  | schedule {d : PipelineSpec} (wanted : desired.pipelines.get? p = some d)
      (unapplied : a.spec.pipelines.get? p = none) : Needed a desired p .schedule
  /-- A desired pipeline was applied with another spec. -/
  | update {d old : PipelineSpec} (wanted : desired.pipelines.get? p = some d)
      (applied : a.spec.pipelines.get? p = some old) : Needed a desired p .update
  /-- A pipeline is applied or unconfirmed, and not desired. -/
  | remove (unwanted : desired.pipelines.get? p = none)
      (claimed : a.spec.pipelines.contains p = true ∨ a.unconfirmed.contains p = true) :
      Needed a desired p .remove

theorem needed {action : PipelineAction} (h : a.needs desired p = some action) :
    a.Needed desired p action := by
  unfold needs at h
  cases hd : desired.pipelines.get? p with
  | some d =>
      simp only [hd] at h
      cases hspec : a.spec.pipelines.get? p with
      | none =>
          rw [hspec] at h
          cases h
          exact .schedule hd hspec
      | some old =>
          rw [hspec, PipelineSpec.needs] at h
          split at h
          · cases h
            exact .update hd hspec
          · cases h
  | none =>
      simp only [hd] at h
      split at h
      · next hclaimed =>
        cases h
        exact .remove hd (by simpa using hclaimed)
      · cases h

/-- Nothing else is needed for a pipeline that is not desired. -/
theorem remove_of_needs {action : PipelineAction} (h : a.needs desired p = some action)
    (hunwanted : desired.pipelines.get? p = none) : .remove = action := by
  cases needed h with
  | remove => rfl
  | schedule wanted | update wanted =>
      rw [hunwanted] at wanted
      cases wanted

/-- Nothing is needed for a pipeline exactly if what was applied last is what is desired, and it is
not unconfirmed without being desired. -/
theorem needs_eq_none_iff : a.needs desired p = none ↔
    a.spec.pipelines.get? p = desired.pipelines.get? p ∧
      (desired.pipelines.get? p = none → a.unconfirmed.get? p = none) := by
  unfold needs
  cases desired.pipelines.get? p with
  | some d => simp [d.needs_eq_none_iff]
  | none => simp [KeyMap.contains_eq_false_iff]

end Applied

/-- No pipeline is both applied and unconfirmed. -/
def Applied.Apart (a : Applied) : Prop :=
  ∀ p, a.unconfirmed.contains p = true → a.spec.pipelines.contains p = false

/-- The wanted part of a plan. -/
private theorem mem_wanted_iff (desired applied : WorkflowSpec) (x : PlannedAction) :
    (x ∈ desired.pipelines.toList.filterMap fun p =>
      (p.2.needs (applied.pipelines.get? p.1)).map fun a => (⟨p.1, a⟩ : PlannedAction)) ↔
      ∃ d, desired.pipelines.get? x.pipeline = some d ∧
        d.needs (applied.pipelines.get? x.pipeline) = some x.action := by
  rw [List.mem_filterMap]
  constructor
  · rintro ⟨⟨p, d⟩, hd, hx⟩
    obtain ⟨act, hact, rfl⟩ := Option.map_eq_some_iff.1 hx
    exact ⟨d, (KeyMap.mem_toList_iff _ p d).1 hd, hact⟩
  · rintro ⟨d, hd, hact⟩
    exact ⟨(x.pipeline, d), (KeyMap.mem_toList_iff _ _ d).2 hd, by rw [hact]; rfl⟩

/-- The removals of the names in a list that a workflow does not have. -/
private theorem mem_removals_iff (names : List String) (desired : WorkflowSpec)
    (x : PlannedAction) :
    (x ∈ (names.filter fun name => !desired.pipelines.contains name).map
      fun name => (⟨name, .remove⟩ : PlannedAction)) ↔
      x.action = .remove ∧ x.pipeline ∈ names ∧ desired.pipelines.contains x.pipeline = false := by
  rw [List.mem_map]
  constructor
  · rintro ⟨name, hname, rfl⟩
    obtain ⟨hmem, hnot⟩ := List.mem_filter.1 hname
    exact ⟨rfl, hmem, by simpa using hnot⟩
  · rintro ⟨hact, hmem, hnot⟩
    refine ⟨x.pipeline, List.mem_filter.2 ⟨hmem, by simp [hnot]⟩, ?_⟩
    rw [← hact]

/-- The actions of a pass, before they are sorted. -/
private theorem manifestActions_perm (desired : WorkflowSpec) (a : Applied) :
    (manifestActions desired a).Perm
      ((desired.pipelines.toList.filterMap fun p =>
          (p.2.needs (a.spec.pipelines.get? p.1)).map fun act => (⟨p.1, act⟩ : PlannedAction)) ++
        ((a.spec.pipelines.keys ++ a.unconfirmed.keys).filter
          fun name => !desired.pipelines.contains name).map
            fun name => (⟨name, .remove⟩ : PlannedAction)) := by
  rw [List.filter_append, List.map_append, ← List.append_assoc]
  unfold manifestActions plan
  simp only
  split
  · next hstale =>
    rw [List.isEmpty_iff.1 hstale, List.append_nil]
    exact PlannedAction.sort_perm _
  · exact (PlannedAction.sort_perm _).trans ((PlannedAction.sort_perm _).append_right _)

/-- **The actions of a pass** are those that the pipelines need. -/
theorem mem_manifestActions_iff (desired : WorkflowSpec) (a : Applied) (x : PlannedAction) :
    x ∈ manifestActions desired a ↔ a.needs desired x.pipeline = some x.action := by
  rw [(manifestActions_perm desired a).mem_iff, List.mem_append, mem_wanted_iff, mem_removals_iff,
    List.mem_append, KeyMap.mem_keys_iff, KeyMap.mem_keys_iff]
  unfold Applied.needs
  cases hd : desired.pipelines.get? x.pipeline with
  | some d =>
      have hhas : desired.pipelines.contains x.pipeline = true :=
        (KeyMap.contains_iff _ _).2 ⟨d, hd⟩
      simp [hhas]
  | none =>
      have hlacks : desired.pipelines.contains x.pipeline = false :=
        (KeyMap.contains_eq_false_iff _ _).2 hd
      simp only [reduceCtorEq, false_and, exists_false, false_or, hlacks, and_true]
      by_cases hin : a.spec.pipelines.contains x.pipeline = true ∨
          a.unconfirmed.contains x.pipeline = true
      · have hor : (a.spec.pipelines.contains x.pipeline ||
            a.unconfirmed.contains x.pipeline) = true := by simpa using hin
        simp only [hin, and_true, hor, if_true, Option.some.injEq]
        exact eq_comm
      · have hor : ¬ (a.spec.pipelines.contains x.pipeline ||
            a.unconfirmed.contains x.pipeline) = true := by simpa using hin
        simp [hin, hor]

/-- The names of applied and unconfirmed pipelines, each once. -/
theorem nodup_keys_append {a : Applied} (h : a.Apart) :
    (a.spec.pipelines.keys ++ a.unconfirmed.keys).Nodup := by
  refine List.nodup_append'.2 ⟨KeyMap.nodup_keys _, KeyMap.nodup_keys _, ?_⟩
  intro p hspec hunconfirmed
  have hnot := h p ((KeyMap.mem_keys_iff _ p).1 hunconfirmed)
  rw [(KeyMap.mem_keys_iff _ p).1 hspec] at hnot
  cases hnot

/-- **A pass attempts at most one action for each pipeline.** -/
theorem nodup_manifestActions (desired : WorkflowSpec) {a : Applied} (h : a.Apart) :
    ((manifestActions desired a).map (·.pipeline)).Nodup := by
  rw [((manifestActions_perm desired a).map (·.pipeline)).nodup_iff, List.map_append,
    List.nodup_append']
  refine ⟨?_, ?_, ?_⟩
  · have hsub : ((desired.pipelines.toList.filterMap fun p =>
        (p.2.needs (a.spec.pipelines.get? p.1)).map fun act =>
          (⟨p.1, act⟩ : PlannedAction)).map (·.pipeline)).Sublist desired.pipelines.keys := by
      unfold KeyMap.keys KeyMap.toList
      induction desired.pipelines.entries with
      | nil => exact .slnil
      | cons x rest ih =>
          rw [List.filterMap_cons]
          cases hx : x.2.needs (a.spec.pipelines.get? x.1) with
          | none => simpa using ih.cons x.1
          | some act => simpa using ih
    exact hsub.nodup (KeyMap.nodup_keys _)
  · rw [List.map_map]
    simpa [Function.comp_def] using (nodup_keys_append h).filter _
  · intro p hwanted hunwanted
    obtain ⟨x, hx, rfl⟩ := List.mem_map.1 hwanted
    obtain ⟨y, hy, heq⟩ := List.mem_map.1 hunwanted
    obtain ⟨d, hd, -⟩ := (mem_wanted_iff desired a.spec x).1 hx
    obtain ⟨-, -, hlacks⟩ := (mem_removals_iff _ desired y).1 hy
    rw [heq, (KeyMap.contains_iff _ _).2 ⟨d, hd⟩] at hlacks
    cases hlacks

/-- A removal takes at most one action for each pipeline. -/
theorem nodup_removalActions {a : Applied} (h : a.Apart) :
    ((removalActions a).map (·.pipeline)).Nodup := by
  unfold removalActions
  rw [List.map_map]
  simpa [Function.comp_def] using nodup_keys_append h

/-- A removal is about the pipelines that are applied or unconfirmed. -/
theorem mem_removalActions_iff (a : Applied) (x : PlannedAction) :
    x ∈ removalActions a ↔ x.action = .remove ∧
      (a.spec.pipelines.contains x.pipeline = true ∨ a.unconfirmed.contains x.pipeline = true) := by
  unfold removalActions
  rw [List.mem_map]
  constructor
  · rintro ⟨name, hname, rfl⟩
    rw [List.mem_append, KeyMap.mem_keys_iff, KeyMap.mem_keys_iff] at hname
    exact ⟨rfl, hname⟩
  · rintro ⟨hact, hname⟩
    rw [← KeyMap.mem_keys_iff, ← KeyMap.mem_keys_iff, ← List.mem_append] at hname
    refine ⟨x.pipeline, hname, ?_⟩
    rw [← hact]

/-- A removal takes the actions that a manifest without pipelines would need. -/
theorem needs_of_mem_removalActions {a : Applied} {x : PlannedAction} (h : x ∈ removalActions a)
    (w : String) : a.needs (.empty w) x.pipeline = some x.action := by
  obtain ⟨hact, hclaimed⟩ := (mem_removalActions_iff a x).1 h
  have hor : (a.spec.pipelines.contains x.pipeline || a.unconfirmed.contains x.pipeline) =
      true := by
    simpa using hclaimed
  simp [Applied.needs, WorkflowSpec.empty, hor, hact]

end FleetControl
