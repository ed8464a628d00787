import FleetControl.Proofs.Workflow.Manifest
import FleetControl.Proofs.Workflow.WellFormed

/-!
# Downstream lists

A pipeline has triggers on those that it waits for; its downstream list names those that wait for it.
The lists are the triggers read backwards. They can be had in two passes over the pipelines: one that
notes every pipeline under each name that its triggers name, and one that gives every pipeline the list
under its own name and takes that out. Names of a workflow are different, so nobody misses a list that
was taken out, and what is left over is under names that the workflow does not have.

* `WorkflowSpec.waitLists`, `WorkflowSpec.handOut` — the two passes;
* `WorkflowSpec.listOf_waitLists` — the first one finds who waits for whom;
* `WorkflowSpec.toList_resolved` — the second one makes the resolved workflow of it;
* `WorkflowSpec.Starts` — the relation that downstream lists tell;
* `WorkflowSpec.resolved_inverts_triggers` — what resolving does.
-/

namespace FleetControl

namespace WorkflowSpec

/-! ## Two passes over the pipelines -/

/-- The list under a name: ascending, and without repetitions. -/
def listOf (lists : KeyMap (KeyMap Unit)) (p : String) : List String :=
  ((lists.get? p).getD .empty).keys

/-- Note a pipeline under some names. -/
def note (q : String) (names : List String) (lists : KeyMap (KeyMap Unit)) :
    KeyMap (KeyMap Unit) :=
  names.foldl (fun lists p => lists.insert p (((lists.get? p).getD .empty).insert q ())) lists

/-- Every pipeline is noted under the names of those that it waits for. -/
def waitLists (w : WorkflowSpec) : KeyMap (KeyMap Unit) :=
  w.pipelines.toList.foldl (fun lists x => note x.1 x.2.predecessors lists) .empty

/-- Every pipeline is given the list under its name, which is taken out. -/
def handOut : KeyMap (KeyMap Unit) → List (String × PipelineSpec) → List (String × PipelineSpec)
  | _, [] => []
  | lists, (p, d) :: rest =>
    (p, { d with downstream := listOf lists p }) :: handOut (lists.erase p) rest

theorem mem_listOf_insert (lists : KeyMap (KeyMap Unit)) (p p' q r : String) :
    r ∈ listOf (lists.insert p (((lists.get? p).getD .empty).insert q ())) p' ↔
      r ∈ listOf lists p' ∨ p' = p ∧ r = q := by
  unfold listOf
  rw [KeyMap.get?_insert]
  by_cases hp : p' = p
  · subst hp
    simp only [if_true, Option.getD_some, KeyMap.mem_keys_iff, KeyMap.contains, KeyMap.get?_insert]
    by_cases hr : r = q <;> simp [hr]
  · simp [hp]

/-- **Noting a pipeline** puts it under the names, and changes nothing else. -/
theorem mem_listOf_note (q : String) (names : List String) (lists : KeyMap (KeyMap Unit))
    (p r : String) :
    r ∈ listOf (note q names lists) p ↔ r ∈ listOf lists p ∨ p ∈ names ∧ r = q := by
  unfold note
  induction names generalizing lists with
  | nil => simp
  | cons name rest ih =>
      rw [List.foldl_cons, ih, mem_listOf_insert, List.mem_cons, or_and_right, or_assoc]

/-- **The first pass** finds who waits for whom. -/
theorem mem_listOf_waitLists (w : WorkflowSpec) (p q : String) :
    q ∈ listOf w.waitLists p ↔ w.Waits q p := by
  -- The lists that there are before stay a parameter of the induction.
  have hall : ∀ (l : List (String × PipelineSpec)) (lists : KeyMap (KeyMap Unit)),
      q ∈ listOf (l.foldl (fun lists x => note x.1 x.2.predecessors lists) lists) p ↔
        q ∈ listOf lists p ∨ ∃ d, (q, d) ∈ l ∧ p ∈ d.predecessors := by
    intro l
    induction l with
    | nil => simp
    | cons x rest ih =>
        intro lists
        rw [List.foldl_cons, ih, mem_listOf_note, or_assoc]
        refine or_congr_right ?_
        constructor
        · rintro (⟨hp, rfl⟩ | ⟨d, hd, hp⟩)
          · exact ⟨x.2, List.mem_cons_self, hp⟩
          · exact ⟨d, List.mem_cons_of_mem _ hd, hp⟩
        · rintro ⟨d, hd, hp⟩
          rcases List.mem_cons.1 hd with rfl | hd
          · exact .inl ⟨hp, rfl⟩
          · exact .inr ⟨d, hd, hp⟩
  rw [waitLists, hall, waits_iff_mem_predecessors]
  simp only [KeyMap.mem_toList_iff]
  exact or_iff_right List.not_mem_nil

theorem listOf_waitLists (w : WorkflowSpec) (p : String) :
    listOf w.waitLists p = w.downstreamOf p := by
  refine (KeyMap.pairwise_keys _).eq_of_mem_iff (w.pairwise_downstreamOf p) fun q => ?_
  rw [mem_downstreamOf]
  exact w.mem_listOf_waitLists p q

/-- **The second pass** gives each of some pipelines with different names the list that there was
under its name. -/
theorem handOut_eq_map {l : List (String × PipelineSpec)} (h : (l.map (·.1)).Nodup)
    (lists : KeyMap (KeyMap Unit)) :
    handOut lists l = l.map fun x => (x.1, { x.2 with downstream := listOf lists x.1 }) := by
  induction l generalizing lists with
  | nil => rfl
  | cons x rest ih =>
      obtain ⟨hfirst, hrest⟩ := List.nodup_cons.1 h
      rw [handOut, ih hrest, List.map_cons]
      refine congrArg (_ :: ·) (List.map_congr_left fun y hy => ?_)
      have hne : y.1 ≠ x.1 := fun heq => hfirst (List.mem_map.2 ⟨y, hy, heq⟩)
      simp only [listOf, KeyMap.get?_erase_of_ne _ hne]

/-- **Two passes** make the resolved workflow. -/
theorem toList_resolved (w : WorkflowSpec) :
    w.resolved.pipelines.toList = handOut w.waitLists w.pipelines.toList := by
  rw [handOut_eq_map (l := w.pipelines.toList) w.pipelines.nodup_keys]
  simp only [listOf_waitLists]
  rfl

/-! ## The relation that downstream lists tell -/

/-- A pipeline of the workflow has another one in its downstream list. -/
def Starts (w : WorkflowSpec) (p q : String) : Prop :=
  ∃ d, w.pipelines.get? p = some d ∧ q ∈ d.downstream

/-- In a resolved workflow a pipeline starts those that wait for it. -/
theorem waits_of_starts {w : WorkflowSpec} {p q : String} (h : w.resolved.Starts p q) :
    w.Waits q p := by
  obtain ⟨d', hd', hq⟩ := h
  rw [get?_resolved] at hd'
  obtain ⟨d, -, rfl⟩ := Option.map_eq_some_iff.1 hd'
  exact (w.mem_downstreamOf q p).1 hq

/-- A pipeline that starts another one, directly or through others, is waited for. -/
theorem awaits_of_starts {w : WorkflowSpec} {p q : String}
    (h : Relation.TransGen w.resolved.Starts p q) : w.Awaits q p := by
  induction h with
  | single hstarts => exact .single (waits_of_starts hstarts)
  | tail _ hstarts ih => exact .head (waits_of_starts hstarts) ih

/-- **Resolving reads the triggers backwards.** A resolved workflow has the pipelines of the workflow
with their triggers, tasks and selectors, and each has a downstream list that is strictly ascending and
names exactly the pipelines of the workflow that have a trigger on it; name and description are those
of the workflow. Two passes over the pipelines make it. Resolving again changes nothing, workflows that
differ in their derived lists only are resolved alike, and in a workflow that was accepted no pipeline
starts itself, directly or through others. -/
theorem resolved_inverts_triggers (w : WorkflowSpec) :
    (∀ p d', w.resolved.pipelines.get? p = some d' ↔
      ∃ d, w.pipelines.get? p = some d ∧ d.Alike d' ∧ d'.downstream.Pairwise (· < ·) ∧
        ∀ q, q ∈ d'.downstream ↔
          ∃ e, w.pipelines.get? q = some e ∧ .pipeline p ∈ e.triggers) ∧
    (w.resolved.name = w.name ∧ w.resolved.description = w.description) ∧
    w.resolved.pipelines.toList = handOut w.waitLists w.pipelines.toList ∧
    w.resolved.resolved = w.resolved ∧
    (∀ w' : WorkflowSpec, w'.underived = w.underived → w'.resolved = w.resolved) ∧
    (w.validate = .ok () → ∀ p, ¬ Relation.TransGen w.resolved.Starts p p) := by
  have hwaits : ∀ p q, q ∈ w.downstreamOf p ↔
      ∃ e, w.pipelines.get? q = some e ∧ .pipeline p ∈ e.triggers :=
    fun p q => w.mem_downstreamOf q p
  refine ⟨fun p d' => ?_, ⟨rfl, rfl⟩, w.toList_resolved, w.resolved_resolved, ?_, ?_⟩
  · rw [get?_resolved, Option.map_eq_some_iff]
    constructor
    · rintro ⟨d, hd, rfl⟩
      exact ⟨d, hd, ⟨rfl, rfl, rfl⟩, w.pairwise_downstreamOf p, hwaits p⟩
    · rintro ⟨d, hd, ⟨htriggers, htasks, hselector⟩, hascends, hmem⟩
      have hlist : w.downstreamOf p = d'.downstream :=
        (w.pairwise_downstreamOf p).eq_of_mem_iff hascends fun q => by rw [hwaits, hmem]
      refine ⟨d, hd, ?_⟩
      rw [hlist, htriggers, htasks, hselector]
  · intro w' hsame
    rw [← resolved_underived, hsame, resolved_underived]
  · intro hvalid p hstarts
    exact ((validate_eq_ok_iff w).1 hvalid).acyclic p (awaits_of_starts hstarts)

/-- Two pipelines wait for the first one, one of them twice, and the last one waits for both. The lists
that were handed in say something else. -/
theorem diamond_resolved :
    let w := ofPipelines "w" [("a", ⟨[.manual], [], .empty, ["d"]⟩),
      ("c", ⟨[.pipeline "a"], [], .empty, []⟩),
      ("b", ⟨[.pipeline "a", .manual, .pipeline "a"], [], .empty, ["a"]⟩),
      ("d", ⟨[.pipeline "c", .pipeline "b"], [], .empty, ["d"]⟩)]
    w.validate = .ok () ∧ (w.resolved.pipelines.get? "a").map (·.downstream) = some ["b", "c"] ∧
      ¬ Relation.TransGen w.resolved.Starts "d" "d" := by
  intro w
  have hvalid : w.validate = .ok () := by decide +kernel
  obtain ⟨-, -, -, -, -, hacyclic⟩ := resolved_inverts_triggers w
  exact ⟨hvalid, by decide +kernel, hacyclic hvalid "d"⟩

end WorkflowSpec

end FleetControl
