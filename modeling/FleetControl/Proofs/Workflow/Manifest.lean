import FleetControl.Cache.Basic
import FleetControl.Proofs.Workflow.Codec
import FleetControl.Proofs.Workflow.Resolved
import FleetControl.Workflow.Validation

/-!
# Manifests as they are stored

A manifest is stored without the derived lists, whatever lists the client handed in. Nothing that is
checked looks at these lists, so the stored manifest is valid exactly if the workflow was, and resolving
it derives the same lists as resolving the workflow. What is read back from the bytes of the manifest is
therefore the resolved workflow.

* `WorkflowSpec.validate_underived` — a workflow is checked without its derived lists;
* `WorkflowSpec.resolved_underived` — and resolved without them;
* `WorkflowSpec.ofManifest_encode_underived` — the stored manifest of a valid workflow reads back as the
  resolved workflow;
* `workflowName?_workflowKey` — the key of a manifest tells the workflow.
-/

namespace FleetControl

namespace WorkflowSpec

/-! ## Without the derived lists -/

theorem get?_underived (w : WorkflowSpec) (p : String) :
    w.underived.pipelines.get? p =
      (w.pipelines.get? p).map fun d => { d with downstream := [] } :=
  KeyMap.get?_mapValues _ _ _

theorem contains_underived (w : WorkflowSpec) (p : String) :
    w.underived.pipelines.contains p = w.pipelines.contains p :=
  KeyMap.contains_mapValues _ _ _

theorem keys_underived (w : WorkflowSpec) : w.underived.pipelines.keys = w.pipelines.keys := by
  simp only [KeyMap.keys, underived, KeyMap.mapValues, List.map_map]
  rfl

theorem size_underived (w : WorkflowSpec) : w.underived.pipelines.size = w.pipelines.size :=
  List.length_map _

/-- The same pipelines wait for a pipeline. -/
theorem waits_underived (w : WorkflowSpec) (q p : String) : w.underived.Waits q p ↔ w.Waits q p := by
  refine waits_congr ?_ p
  rw [get?_underived, Option.map_map]
  rfl

/-- **Resolving a workflow** does not look at the lists that it has. -/
theorem resolved_underived (w : WorkflowSpec) : w.underived.resolved = w.resolved := by
  have hpipelines : w.underived.resolved.pipelines = w.resolved.pipelines := by
    apply KeyMap.ext_get?
    intro p
    have hsame : w.underived.downstreamOf p = w.downstreamOf p := by
      rw [downstreamOf_eq_iff]
      exact fun q => w.waits_underived q p
    rw [get?_resolved, get?_resolved, get?_underived, hsame]
    cases w.pipelines.get? p <;> rfl
  exact congrArg (WorkflowSpec.mk w.name w.description) hpipelines

/-! ## Checks -/

theorem checkTrigger_underived (w : WorkflowSpec) (pipeline : String) :
    w.underived.checkTrigger pipeline = w.checkTrigger pipeline := by
  funext trigger
  cases trigger with
  | cron schedule => rfl
  | manual => rfl
  | pipeline target => simp only [checkTrigger, contains_underived]

/-- A pipeline is checked without its derived list. -/
theorem checkPipeline_underived (w : WorkflowSpec) (name : String) (p : PipelineSpec) :
    w.underived.checkPipeline name { p with downstream := [] } = w.checkPipeline name p := by
  simp only [checkPipeline, checkTrigger_underived]

theorem predecessorsOf_underived (w : WorkflowSpec) (name : String) :
    w.underived.predecessorsOf name = w.predecessorsOf name := by
  unfold predecessorsOf
  rw [get?_underived]
  cases w.pipelines.get? name <;> rfl

/-- The walk against the triggers is the same. -/
theorem visit_underived (w : WorkflowSpec) (fuel : Nat) :
    w.underived.visit fuel = w.visit fuel := by
  induction fuel with
  | zero => rfl
  | succ fuel ih =>
      funext name marks
      simp only [visit, predecessorsOf_underived, ih]

theorem checkAcyclic_underived (w : WorkflowSpec) : w.underived.checkAcyclic = w.checkAcyclic := by
  simp only [checkAcyclic, keys_underived, size_underived, visit_underived]

/-- **A workflow is checked** without its derived lists. -/
theorem validate_underived (w : WorkflowSpec) : w.underived.validate = w.validate := by
  have hpipelines : (w.underived.pipelines.toList.forM fun p => w.underived.checkPipeline p.1 p.2) =
      w.pipelines.toList.forM fun p => w.checkPipeline p.1 p.2 := by
    have hlist : w.underived.pipelines.toList =
        w.pipelines.toList.map fun x => (x.1, { x.2 with downstream := [] }) := rfl
    rw [hlist]
    refine List.forM_map.trans ?_
    simp only [checkPipeline_underived]
    rfl
  have hname : w.underived.name = w.name := rfl
  simp only [validate, hpipelines, checkAcyclic_underived, hname]

/-- A valid workflow has a name. -/
theorem name_ne_empty {w : WorkflowSpec} (h : w.validate = .ok ()) : w.name ≠ "" := by
  intro hname
  simp only [validate, hname] at h
  cases h

/-- **The stored manifest of a valid workflow** reads back as the resolved workflow. -/
theorem ofManifest_encode_underived {w : WorkflowSpec} (h : w.validate = .ok ()) :
    ofManifest w.name w.underived.encode = .ok w.resolved := by
  have hname : w.underived.name = w.name := rfl
  simp only [ofManifest, decode?_encode, hname, validate_underived, h, resolved_underived, ne_eq,
    not_true_eq_false, if_false]
  rfl

end WorkflowSpec

/-! ## Keys of manifests -/

/-- The key of a manifest is under the scope of manifests. -/
theorem under_workflowKey (name : String) : under workflowScope (workflowKey name) = true := by
  simp [under, workflowKey, String.toList_append]

/-- **The key of a manifest tells the workflow.** -/
theorem workflowName?_workflowKey {name : String} (h : name ≠ "") :
    workflowName? (workflowKey name) = some name := by
  have hlength : workflowScope.length < (workflowKey name).length := by
    have hpos : 0 < name.length := by
      rw [Nat.pos_iff_ne_zero]
      exact fun hzero => h (String.length_eq_zero_iff.1 hzero)
    rw [workflowKey, String.length_append]
    omega
  have hdrop : (workflowKey name).toList.drop workflowScope.length = name.toList := by
    rw [workflowKey, String.toList_append]
    exact List.drop_left' String.length_toList
  have hunder : workflowScope.toList.isPrefixOf (workflowKey name).toList = true :=
    under_workflowKey name
  simp only [workflowName?, nameUnder?, hunder, hlength, decide_true, Bool.and_self, if_true, hdrop,
    String.ofList_toList]

end FleetControl
