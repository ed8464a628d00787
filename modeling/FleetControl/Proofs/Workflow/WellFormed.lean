import FleetControl.Proofs.Workflow.Cycles

/-!
# Well-formed workflows

What a workflow must be for its manifest to be accepted, said without the order in which it is
checked: names that can be used, schedules that the parser of schedules accepts, triggers on other
pipelines of the workflow, tasks with an image and with names of their own, and no pipeline that
waits for itself. Which schedules those are is the parser's to say; nothing here looks into it.

Every check either passes on exactly the part of this that it is about, or names a fault of its own,
and only the walk over the triggers names a cycle.

* `WorkflowSpec.WellFormed` — what is asked of a workflow;
* `WorkflowSpec.checkPipeline_eq_ok_iff` — a pipeline passes exactly when it is well-formed;
* `WorkflowSpec.validate_spec` — a workflow is accepted exactly when it is well-formed, the pipeline
  named by a cycle fault lies on a cycle, and the walk over the triggers ends.
-/

namespace FleetControl

/-- A text has a character that is not blank. -/
def Visible (text : String) : Prop := ∃ c ∈ text.toList, Text.isBlank c = false

/-- A name that can be used: it is not blank and has no slash. -/
structure ValidName (name : String) : Prop where
  visible : Visible name
  unsplit : '/' ∉ name.toList

theorem isAllBlank_eq_false_iff (text : String) : Text.isAllBlank text = false ↔ Visible text := by
  simp [Text.isAllBlank, Visible, List.all_eq_false]

theorem checkName_eq_ok_iff (name : String) : checkName name = .ok () ↔ ValidName name := by
  have hfaults : (Text.isAllBlank name || name.toList.contains '/') = false ↔ ValidName name := by
    rw [Bool.or_eq_false_iff, isAllBlank_eq_false_iff, List.contains_eq_mem, decide_eq_false_iff_not]
    exact ⟨fun h => ⟨h.1, h.2⟩, fun h => ⟨h.visible, h.unsplit⟩⟩
  rw [← hfaults, checkName]
  cases Text.isAllBlank name || name.toList.contains '/' <;> simp

/-- A name that cannot be used is named as such. -/
theorem checkName_ne_triggerCycle (name p : String) : checkName name ≠ .error (.triggerCycle p) := by
  unfold checkName
  split <;> simp

/-! ## Checks one after the other -/

section Checks

variable {α ε : Type}

theorem andThen_eq_ok_iff (first : Except ε Unit) (second : Except ε Unit) :
    (do first; second) = .ok () ↔ first = .ok () ∧ second = .ok () := by
  cases first with
  | error e => simp [bind, Except.bind]
  | ok u => simp [bind, Except.bind]

theorem andThen_eq_error {first second : Except ε Unit} {e : ε}
    (h : (do first; second) = .error e) : first = .error e ∨ second = .error e := by
  cases first with
  | error e' => exact .inl h
  | ok u => exact .inr h

theorem forM_eq_ok_iff (check : α → Except ε Unit) (l : List α) :
    l.forM check = .ok () ↔ ∀ x ∈ l, check x = .ok () := by
  induction l with
  | nil => simp [List.forM, pure, Except.pure]
  | cons x rest ih =>
      have hcons : (x :: rest).forM check = (do check x; rest.forM check) := rfl
      rw [hcons, andThen_eq_ok_iff, ih, List.forall_mem_cons]

theorem forM_eq_error {check : α → Except ε Unit} {l : List α} {e : ε}
    (h : l.forM check = .error e) : ∃ x ∈ l, check x = .error e := by
  induction l with
  | nil => cases h
  | cons x rest ih =>
      rcases andThen_eq_error h with hx | hrest
      · exact ⟨x, List.mem_cons_self, hx⟩
      · obtain ⟨y, hy, herror⟩ := ih hrest
        exact ⟨y, List.mem_cons_of_mem _ hy, herror⟩

end Checks

namespace WorkflowSpec

/-! ## One pipeline -/

/-- A trigger that a pipeline may have. -/
def ValidTrigger (w : WorkflowSpec) (pipeline : String) : Trigger → Prop
  | .cron schedule => Cron.check schedule = .ok ()
  | .manual => True
  | .pipeline target => target ≠ pipeline ∧ w.pipelines.contains target = true

theorem checkTrigger_eq_ok_iff (w : WorkflowSpec) (pipeline : String) (t : Trigger) :
    w.checkTrigger pipeline t = .ok () ↔ w.ValidTrigger pipeline t := by
  cases t with
  | cron schedule =>
      simp only [checkTrigger, ValidTrigger]
      cases Cron.check schedule <;> simp
  | manual => simp [checkTrigger, ValidTrigger]
  | pipeline target =>
      simp only [checkTrigger, ValidTrigger]
      split
      · simp_all
      · split <;> simp_all

theorem checkTrigger_ne_triggerCycle (w : WorkflowSpec) (pipeline : String) (t : Trigger)
    (p : String) : w.checkTrigger pipeline t ≠ .error (.triggerCycle p) := by
  cases t with
  | cron schedule =>
      simp only [checkTrigger]
      split <;> simp
  | manual => simp [checkTrigger]
  | pipeline target =>
      simp only [checkTrigger]
      split
      · simp
      · split <;> simp

/-- A task that a pipeline may have. -/
structure ValidTask (t : Task) : Prop where
  name : ValidName t.name
  image : Visible t.image

/-- A task passes after those with the names in `seen` when its name is none of them. -/
theorem checkTasks_cons (pipeline : String) (seen : List String) (t : Task) (rest : List Task) :
    checkTasks pipeline seen (t :: rest) = .ok () ↔
      ValidTask t ∧ t.name ∉ seen ∧ checkTasks pipeline (t.name :: seen) rest = .ok () := by
  rw [checkTasks, andThen_eq_ok_iff, checkName_eq_ok_iff]
  cases himage : Text.isAllBlank t.image with
  | true =>
      have hblank : ¬ Visible t.image := by
        rw [← isAllBlank_eq_false_iff, himage]
        simp
      have hinvalid : ¬ ValidTask t := fun h => hblank h.image
      simp [hinvalid]
  | false =>
      have hvisible : Visible t.image := (isAllBlank_eq_false_iff _).1 himage
      have hvalid : ValidTask t ↔ ValidName t.name := ⟨(·.name), fun h => ⟨h, hvisible⟩⟩
      by_cases hseen : t.name ∈ seen <;> simp [hseen, hvalid]

/-- **Tasks pass exactly** when each is valid and all have names of their own. -/
theorem checkTasks_eq_ok_iff (pipeline : String) (seen : List String) (tasks : List Task) :
    checkTasks pipeline seen tasks = .ok () ↔
      (∀ t ∈ tasks, ValidTask t ∧ t.name ∉ seen) ∧ (tasks.map (·.name)).Nodup := by
  induction tasks generalizing seen with
  | nil => simp [checkTasks]
  | cons t rest ih =>
      rw [checkTasks_cons, ih, List.map_cons, List.nodup_cons, List.forall_mem_cons]
      simp only [List.mem_cons, not_or, List.mem_map, not_exists, not_and]
      constructor
      · rintro ⟨ht, hseen, hrest, hnodup⟩
        exact ⟨⟨⟨ht, hseen⟩, fun x hx => ⟨(hrest x hx).1, (hrest x hx).2.2⟩⟩,
          fun x hx => (hrest x hx).2.1, hnodup⟩
      · rintro ⟨⟨⟨ht, hseen⟩, hrest⟩, hown, hnodup⟩
        exact ⟨ht, hseen, fun x hx => ⟨(hrest x hx).1, hown x hx, (hrest x hx).2⟩, hnodup⟩

theorem checkTasks_ne_triggerCycle (pipeline : String) (seen : List String) (tasks : List Task)
    (p : String) : checkTasks pipeline seen tasks ≠ .error (.triggerCycle p) := by
  induction tasks generalizing seen with
  | nil => simp [checkTasks]
  | cons t rest ih =>
      intro h
      rcases andThen_eq_error h with hname | hrest
      · exact checkName_ne_triggerCycle _ _ hname
      · split at hrest
        · cases hrest
        · split at hrest
          · cases hrest
          · exact ih _ hrest

/-- What is asked of a pipeline. -/
structure WellFormedPipeline (w : WorkflowSpec) (name : String) (d : PipelineSpec) : Prop where
  usable : ValidName name
  /-- Every cron schedule is accepted by the parser of schedules. -/
  schedules : ∀ s, Trigger.cron s ∈ d.triggers → Cron.check s = .ok ()
  /-- The pipeline does not trigger itself. -/
  others : Trigger.pipeline name ∉ d.triggers
  /-- Every trigger on a pipeline names one of the workflow. -/
  targets : ∀ q, Trigger.pipeline q ∈ d.triggers → w.pipelines.contains q = true
  taskNames : ∀ t ∈ d.tasks, ValidName t.name
  images : ∀ t ∈ d.tasks, Visible t.image
  distinct : (d.tasks.map (·.name)).Nodup

theorem validTriggers_iff (w : WorkflowSpec) (name : String) (triggers : List Trigger) :
    (∀ t ∈ triggers, w.ValidTrigger name t) ↔
      (∀ s, Trigger.cron s ∈ triggers → Cron.check s = .ok ()) ∧ Trigger.pipeline name ∉ triggers ∧
        ∀ q, Trigger.pipeline q ∈ triggers → w.pipelines.contains q = true := by
  constructor
  · intro h
    exact ⟨fun s hs => h _ hs, fun hself => (h _ hself).1 rfl, fun q hq => (h _ hq).2⟩
  · rintro ⟨hschedules, hself, htargets⟩ t ht
    cases t with
    | cron s => exact hschedules s ht
    | manual => trivial
    | pipeline q => exact ⟨fun heq => hself (heq ▸ ht), htargets q ht⟩

/-- **A pipeline passes exactly when it is well-formed.** -/
theorem checkPipeline_eq_ok_iff (w : WorkflowSpec) (name : String) (d : PipelineSpec) :
    w.checkPipeline name d = .ok () ↔ w.WellFormedPipeline name d := by
  rw [checkPipeline, andThen_eq_ok_iff, andThen_eq_ok_iff, checkName_eq_ok_iff, forM_eq_ok_iff,
    checkTasks_eq_ok_iff]
  simp only [checkTrigger_eq_ok_iff, validTriggers_iff, List.not_mem_nil, not_false_eq_true, and_true]
  constructor
  · rintro ⟨hname, ⟨hschedules, hothers, htargets⟩, htasks, hdistinct⟩
    exact ⟨hname, hschedules, hothers, htargets, fun t ht => (htasks t ht).name,
      fun t ht => (htasks t ht).image, hdistinct⟩
  · rintro ⟨hname, hschedules, hothers, htargets, hnames, himages, hdistinct⟩
    exact ⟨hname, ⟨hschedules, hothers, htargets⟩, fun t ht => ⟨hnames t ht, himages t ht⟩, hdistinct⟩

/-- The checks of a pipeline name no cycle. -/
theorem checkPipeline_ne_triggerCycle (w : WorkflowSpec) (name : String) (d : PipelineSpec)
    (p : String) : w.checkPipeline name d ≠ .error (.triggerCycle p) := by
  intro h
  rcases andThen_eq_error h with hname | hrest
  · exact checkName_ne_triggerCycle _ _ hname
  · rcases andThen_eq_error hrest with htriggers | htasks
    · obtain ⟨t, -, ht⟩ := forM_eq_error htriggers
      exact w.checkTrigger_ne_triggerCycle name t p ht
    · exact checkTasks_ne_triggerCycle _ _ _ p htasks

/-! ## The workflow -/

/-- What is asked of a workflow. -/
structure WellFormed (w : WorkflowSpec) : Prop where
  name : ValidName w.name
  pipelines : ∀ p d, w.pipelines.get? p = some d → w.WellFormedPipeline p d
  /-- No pipeline waits for itself, directly or through others. -/
  acyclic : ∀ p, ¬ w.Awaits p p

/-- **A workflow is accepted exactly when it is well-formed.** -/
theorem validate_eq_ok_iff (w : WorkflowSpec) : w.validate = .ok () ↔ w.WellFormed := by
  have hpipelines : (w.pipelines.toList.forM fun p => w.checkPipeline p.1 p.2) = .ok () ↔
      ∀ p d, w.pipelines.get? p = some d → w.WellFormedPipeline p d := by
    rw [forM_eq_ok_iff]
    simp only [checkPipeline_eq_ok_iff, Prod.forall, KeyMap.mem_toList_iff]
  rw [validate, andThen_eq_ok_iff, andThen_eq_ok_iff, checkName_eq_ok_iff, hpipelines,
    checkAcyclic_eq_ok_iff]
  exact ⟨fun ⟨hname, hall, hacyclic⟩ => ⟨hname, hall, hacyclic⟩,
    fun h => ⟨h.name, h.pipelines, h.acyclic⟩⟩

/-- **A pipeline that is named by a cycle fault** waits for itself. -/
theorem awaits_of_validate {w : WorkflowSpec} {p : String}
    (h : w.validate = .error (.triggerCycle p)) : w.Awaits p p := by
  rcases andThen_eq_error h with hname | hrest
  · exact absurd hname (checkName_ne_triggerCycle _ _)
  · rcases andThen_eq_error hrest with hpipelines | hcycle
    · obtain ⟨x, -, hx⟩ := forM_eq_error hpipelines
      exact absurd hx (w.checkPipeline_ne_triggerCycle _ _ _)
    · obtain ⟨q, hq, hawaits⟩ := checkAcyclic_eq_error hcycle
      cases hq
      exact hawaits

/-- **What the check of a workflow decides**, whatever its pipelines and triggers are: the walk over
the triggers, on whose depth there need be no bound, comes to one thing and the check of the
triggers to the same; the workflow is accepted exactly when it is well-formed; and a pipeline that
is named by a cycle fault lies on a cycle. -/
theorem validate_spec (w : WorkflowSpec) :
    (∃ out, (∀ out', w.Walk w.pipelines.keys .empty out' ↔ out' = out) ∧
      w.checkAcyclic = out.map fun _ => ()) ∧
    (w.validate = .ok () ↔ w.WellFormed) ∧
    ∀ p, w.validate = .error (.triggerCycle p) → w.Awaits p p := by
  have hwalk : ∀ out, w.Walk w.pipelines.keys .empty out ↔ out = w.walked := by
    intro out
    exact ⟨fun h => h.unique w.walk_walked, fun h => h ▸ w.walk_walked⟩
  exact ⟨⟨w.walked, hwalk, w.checkAcyclic_eq⟩, w.validate_eq_ok_iff, fun _ => awaits_of_validate⟩

/-- A pipeline after a cycle is walked first, and the cycle is named where it closes. -/
example :
    (ofPipelines "w" [("a", ⟨[.pipeline "b"], [], .empty, []⟩), ("b", ⟨[.pipeline "c"], [], .empty, []⟩),
      ("c", ⟨[.manual, .pipeline "b"], [], .empty, []⟩)]).validate = .error (.triggerCycle "b") := by
  decide +kernel

end WorkflowSpec

end FleetControl
