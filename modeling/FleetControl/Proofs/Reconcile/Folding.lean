import FleetControl.Proofs.Fleet.Basic
import FleetControl.Proofs.Reconcile.Trials
import FleetControl.Proofs.Site.Documents

/-!
# What a pass that partly failed records

A pass tries the actions of its plan one after the other and folds what came of each into a working
copy, which is filtered once more when it is written. Since each action is tried on its own pipeline
and folded into its own pipeline, the document that is written tells every trial apart: an applied
pipeline has the spec of the manifest, or none if it was removed, and every other pipeline has what
it had. The filter takes nothing away, because a trial leaves what is known about its pipeline as
tidy as it found it. A pipeline is unconfirmed when its schedule failed and left an executor behind,
or when it was so before and its action failed; whatever is unconfirmed is in the plan.

* `Applied.Plans` — what the plan of a pass has in common with that of a removal;
* `ReconcileReport.Accounts` — a report tells every planned action once;
* `WorkflowStatus.Folds` — a document tells the outcome of every trial;
* `Host.partial_failure_is_folded` — the report and the document of a pass and of a removal.
-/

namespace FleetControl

open Simulation (Backend)

/-! ## Plans -/

/-- A plan that is made from a working copy: at most one action for each pipeline, each of them
needed, and one for whatever is unconfirmed. -/
structure Applied.Plans (start : Applied) (desired : WorkflowSpec) (plan : List PlannedAction) :
    Prop where
  distinct : (plan.map (·.pipeline)).Nodup
  needed : ∀ planned ∈ plan, start.needs desired planned.pipeline = some planned.action
  unconfirmed : ∀ p, start.unconfirmed.contains p = true →
    ∃ planned ∈ plan, planned.pipeline = p

/-- The plan of a pass over a manifest. -/
theorem Applied.plans_manifest {start : Applied} (h : start.Apart) (desired : WorkflowSpec) :
    start.Plans desired (manifestActions desired start) := by
  refine ⟨nodup_manifestActions desired h, fun planned => (mem_manifestActions_iff _ _ _).1, ?_⟩
  intro p hp
  -- An unconfirmed pipeline is not applied, so it is to be scheduled or to be removed.
  have hneeds : ∃ action, start.needs desired p = some action := by
    rw [← Option.isSome_iff_exists, ← Option.ne_none_iff_isSome, Ne, Applied.needs_eq_none_iff]
    rintro ⟨hspec, hnone⟩
    rw [(KeyMap.contains_eq_false_iff _ _).1 (h p hp)] at hspec
    obtain ⟨u, hu⟩ := (KeyMap.contains_iff _ _).1 hp
    rw [hnone hspec.symm] at hu
    cases hu
  obtain ⟨action, haction⟩ := hneeds
  exact ⟨⟨p, action⟩, (mem_manifestActions_iff _ _ _).2 haction, rfl⟩

/-- The plan of a removal. -/
theorem Applied.plans_removal {start : Applied} (h : start.Apart) (w : String) :
    start.Plans (.empty w) (removalActions start) :=
  ⟨nodup_removalActions h, fun _ hplanned => needs_of_mem_removalActions hplanned w,
    fun p hp => ⟨⟨p, .remove⟩, (mem_removalActions_iff _ _).2 ⟨rfl, .inr hp⟩, rfl⟩⟩

/-! ## Reports -/

/-- A report tells every action of a plan once, as applied or as failed, and the plan has at most
one action for each pipeline. -/
structure ReconcileReport.Accounts (r : ReconcileReport) (plan : List PlannedAction) : Prop where
  once : (r.applied ++ r.failures.map fun f => (⟨f.pipeline, f.action⟩ : PlannedAction)).Perm plan
  distinct : (plan.map (·.pipeline)).Nodup

/-- Each trial is either applied or failed. -/
theorem Trial.perm_applied_failure (trials : List Trial) :
    (trials.filterMap Trial.applied? ++ (trials.filterMap Trial.failure?).map
      fun f => (⟨f.pipeline, f.action⟩ : PlannedAction)).Perm (trials.map (·.planned)) := by
  induction trials with
  | nil => exact .refl _
  | cons t rest ih =>
      obtain ⟨planned, spec, outcome, status⟩ := t
      cases outcome with
      | ok u => exact ih.cons planned
      | error e => exact List.perm_middle.trans (ih.cons planned)

theorem Trial.mem_applied_iff (trials : List Trial) (planned : PlannedAction) :
    planned ∈ trials.filterMap Trial.applied? ↔
      ∃ t ∈ trials, t.planned = planned ∧ t.result.1 = .ok () := by
  rw [List.mem_filterMap]
  refine exists_congr fun t => and_congr_right fun _ => ?_
  obtain ⟨planned', spec, outcome, status⟩ := t
  cases outcome <;> simp [Trial.applied?]

/-- A trial has failed if nothing was applied to its pipeline. -/
theorem Trial.failed_of_not_applied {trials : List Trial} {t : Trial} (ht : t ∈ trials)
    (hnone : ∀ planned ∈ trials.filterMap Trial.applied?, planned.pipeline ≠ t.pipeline) :
    t.Failed := by
  cases hresult : t.result.1 with
  | error e => exact ⟨e, hresult⟩
  | ok u =>
      have happlied := (Trial.mem_applied_iff trials t.planned).2 ⟨t, ht, rfl, hresult⟩
      exact absurd rfl (hnone t.planned happlied)

theorem Trial.exists_failure_iff (trials : List Trial) (p : String) :
    (∃ f ∈ trials.filterMap Trial.failure?, f.pipeline = p) ↔
      ∃ t ∈ trials, t.pipeline = p ∧ t.Failed := by
  simp only [List.mem_filterMap]
  constructor
  · rintro ⟨f, ⟨t, ht, hf⟩, rfl⟩
    refine ⟨t, ht, ?_⟩
    obtain ⟨planned, spec, outcome, status⟩ := t
    cases outcome with
    | ok u => cases hf
    | error e =>
        cases hf
        exact ⟨rfl, e, rfl⟩
  · rintro ⟨t, ht, rfl, e, he⟩
    exact ⟨⟨t.pipeline, t.planned.action, (ControlError.agent e).message⟩,
      ⟨t, ht, by simp only [Trial.failure?, he]⟩, rfl⟩

/-! ## Documents -/

/-- A document that tells, for every pipeline, what came of its own trial and otherwise what was
known when the plan was made. -/
structure WorkflowStatus.Folds (doc : WorkflowStatus) (desired : WorkflowSpec) (start : Applied)
    (trials : List Trial) (r : ReconcileReport) : Prop where
  /-- A pipeline that was scheduled or updated has the spec of the manifest. -/
  placed : ∀ planned ∈ r.applied, planned.action ≠ .remove →
    ∃ d, desired.pipelines.get? planned.pipeline = some d ∧
      doc.spec.pipelines.get? planned.pipeline = some d
  /-- A pipeline that was removed has none. -/
  removed : ∀ planned ∈ r.applied, planned.action = .remove →
    doc.spec.pipelines.get? planned.pipeline = none
  /-- Any other pipeline has the spec and the status that it had. -/
  kept : ∀ p, (∀ planned ∈ r.applied, planned.pipeline ≠ p) →
    doc.spec.pipelines.get? p = start.spec.pipelines.get? p ∧
      doc.pipelines.get? p = start.pipelines.get? p
  unconfirmed : ∀ p, doc.unconfirmed.contains p = true ↔
    (∃ t ∈ trials, t.planned = ⟨p, .schedule⟩ ∧ t.Failed ∧ t.result.2.executor.isSome = true) ∨
      (start.unconfirmed.contains p = true ∧ ∃ f ∈ r.failures, f.pipeline = p)
  /-- No other trial has a part in what is recorded about a pipeline. -/
  own : ∀ t ∈ trials, doc.slot t.pipeline = (start.slot t.pipeline).fold t

namespace Slot

/-- The spec after a trial that succeeded. -/
theorem spec_fold_ok {k : Slot} {t : Trial} (h : t.result.1 = .ok ()) :
    (k.fold t).spec = if t.planned.action = .remove then none else some t.spec := by
  obtain ⟨planned, spec, outcome, status⟩ := t
  obtain rfl : outcome = .ok () := h
  simp only [Slot.fold]
  split <;> rfl

/-- A trial that failed changes neither the spec nor the status. -/
theorem fold_failed {k : Slot} {t : Trial} (h : t.Failed) :
    (k.fold t).spec = k.spec ∧ (k.fold t).status = k.status := by
  obtain ⟨planned, spec, outcome, status⟩ := t
  obtain ⟨e, rfl⟩ := h
  simp only [Slot.fold]
  split <;> exact ⟨rfl, rfl⟩

/-- A pipeline is unconfirmed after its trial if that was a schedule that failed and left an
executor behind, or if it was unconfirmed and the trial failed. -/
theorem unconfirmed_fold (k : Slot) (t : Trial) :
    (k.fold t).unconfirmed.isSome = true ↔
      (t.planned.action = .schedule ∧ t.Failed ∧ t.result.2.executor.isSome = true) ∨
        (k.unconfirmed.isSome = true ∧ t.Failed) := by
  obtain ⟨planned, spec, outcome, status⟩ := t
  cases outcome with
  | ok u =>
      have hnot : ¬ Trial.Failed ⟨planned, spec, .ok u, status⟩ := fun ⟨e, he⟩ => by cases he
      simp only [Slot.fold, hnot, and_false, false_and, or_self, iff_false]
      split <;> simp
  | error e =>
      have hfailed : Trial.Failed ⟨planned, spec, .error e, status⟩ := ⟨e, rfl⟩
      simp only [Slot.fold, hfailed, and_true, true_and]
      split
      · next hleft => simp [hleft]
      · next hleft => simp [hleft]

end Slot

/-! ## From a plan to its document -/

/-- The trials of a plan: each of its actions, with the spec that the plan has for it. -/
structure Applied.Tried (start : Applied) (desired : WorkflowSpec) (plan : List PlannedAction)
    (trials : List Trial) : Prop where
  planned : trials.map (·.planned) = plan
  spec : ∀ t ∈ trials, start.specFor desired t.planned = some t.spec

namespace Applied.Plans

variable {desired : WorkflowSpec} {start : Applied} {plan : List PlannedAction}

section Trials

variable {τ : Type} (answer : (r : Request) → τ → r.Reply × τ) (deadline : Span) (w : String)

/-- What comes of carrying out a plan. -/
theorem run_all (h : start.Plans desired plan) (x : τ) :
    (Attempt.all deadline w desired plan start).run answer x =
      let t := start.trials answer deadline w desired plan x
      (.ofTrials start t.1, t.2) :=
  Attempt.run_all_eq answer deadline w desired h.distinct
    (fun planned hplanned => specFor_of_needs (h.needed planned hplanned)) (fun _ _ => rfl) x

theorem tried (h : start.Plans desired plan) (x : τ) :
    start.Tried desired plan (start.trials answer deadline w desired plan x).1 := by
  have hplanned := map_planned_trials answer deadline w desired start plan x
  refine ⟨hplanned, fun t ht => ?_⟩
  have hmem : t.planned ∈ plan := by
    rw [← hplanned]
    exact List.mem_map_of_mem ht
  have hsome := specFor_of_needs (h.needed _ hmem)
  rw [spec_of_mem_trials answer deadline w desired ht]
  obtain ⟨spec, hspec⟩ := Option.isSome_iff_exists.1 hsome
  rw [hspec, Option.getD_some]

end Trials

variable {trials : List Trial}

theorem mem_plan (tried : start.Tried desired plan trials) {t : Trial} (ht : t ∈ trials) :
    t.planned ∈ plan := by
  rw [← tried.planned]
  exact List.mem_map_of_mem ht

/-- The trials are about different pipelines. -/
theorem distinct_trials (h : start.Plans desired plan) (tried : start.Tried desired plan trials) :
    (trials.map (·.pipeline)).Nodup := by
  have hdistinct := h.distinct
  rw [← tried.planned, List.map_map] at hdistinct
  exact hdistinct

/-- A trial is told by its pipeline. -/
theorem eq_of_pipeline (h : start.Plans desired plan) (tried : start.Tried desired plan trials)
    {t t' : Trial} (ht : t ∈ trials) (ht' : t' ∈ trials) (hsame : t'.pipeline = t.pipeline) :
    t' = t :=
  List.inj_on_of_nodup_map (h.distinct_trials tried) ht' ht hsame

/-- What is known about every pipeline stays tidy. -/
theorem tidy_foldTrials (h : start.Plans desired plan) (tried : start.Tried desired plan trials)
    (htidy : ∀ p, (start.slot p).Tidy) (p : String) :
    ((trials.foldl foldTrial start).slot p).Tidy := by
  by_cases hp : ∃ t ∈ trials, t.pipeline = p
  · obtain ⟨t, ht, rfl⟩ := hp
    rw [slot_foldTrials (h.distinct_trials tried) start ht]
    refine (htidy _).fold fun hschedule => ?_
    have hneeds := h.needed _ (mem_plan tried ht)
    rw [hschedule] at hneeds
    cases Applied.needed hneeds with
    | schedule _ unapplied => exact unapplied
  · rw [slot_foldTrials_of_ne start fun t ht heq => hp ⟨t, ht, heq⟩]
    exact htidy p

/-- The report of a plan accounts for it. -/
theorem accounts (h : start.Plans desired plan) (tried : start.Tried desired plan trials)
    {r : ReconcileReport} (happlied : r.applied = trials.filterMap Trial.applied?)
    (hfailures : r.failures = trials.filterMap Trial.failure?) : r.Accounts plan := by
  refine ⟨?_, h.distinct⟩
  rw [happlied, hfailures, ← tried.planned]
  exact Trial.perm_applied_failure trials

/-- A pass leaves the document as it is when there is one, nothing was planned and the description
is that of the manifest. -/
theorem quiet_ofTrials_iff (h : start.Plans desired plan) (tried : start.Tried desired plan trials)
    (previous : Option WorkflowStatus) :
    (Attempt.ofTrials start trials).quiet desired previous = true ↔
      previous.isSome = true ∧ plan = [] ∧ start.spec.description = desired.description := by
  have hdescription : (Attempt.ofTrials start trials).state.spec.description =
      start.spec.description := (frame_foldTrials trials start).2
  have hlength := (h.accounts tried (r := (Attempt.ofTrials start trials).report "" true)
    rfl rfl).once.length_eq
  simp only [Attempt.report, List.length_append, List.length_map] at hlength
  rw [Attempt.quiet, hdescription, hlength]
  simp [and_assoc]

/-- A pipeline that was not tried is not unconfirmed, as the plan has all that are. -/
theorem confirmed_of_untried (h : start.Plans desired plan)
    (tried : start.Tried desired plan trials) {p : String} (hp : ∀ t ∈ trials, t.pipeline ≠ p) :
    start.unconfirmed.contains p = false := by
  rw [Bool.eq_false_iff]
  intro hunconfirmed
  obtain ⟨planned, hplanned, rfl⟩ := h.unconfirmed p hunconfirmed
  rw [← tried.planned] at hplanned
  obtain ⟨t, ht, rfl⟩ := List.mem_map.1 hplanned
  exact hp t ht rfl

/-- Whether a pipeline is unconfirmed after its trial, as told by all trials and failures: no other
of them is about it. -/
theorem unconfirmed_own (h : start.Plans desired plan) (tried : start.Tried desired plan trials)
    {t : Trial} (ht : t ∈ trials) :
    ((start.slot t.pipeline).fold t).unconfirmed.isSome = true ↔
      (∃ t' ∈ trials, t'.planned = ⟨t.pipeline, .schedule⟩ ∧ t'.Failed ∧
        t'.result.2.executor.isSome = true) ∨
      (start.unconfirmed.contains t.pipeline = true ∧
        ∃ f ∈ trials.filterMap Trial.failure?, f.pipeline = t.pipeline) := by
  rw [Trial.exists_failure_iff, Slot.unconfirmed_fold]
  refine or_congr ⟨?_, ?_⟩ (and_congr_right fun _ => ⟨fun hfailed => ⟨t, ht, rfl, hfailed⟩, ?_⟩)
  · rintro ⟨haction, hrest⟩
    exact ⟨t, ht, by rw [← haction], hrest⟩
  · rintro ⟨t', ht', hplanned, hrest⟩
    have hsame : t'.pipeline = t.pipeline := by rw [Trial.pipeline, hplanned]
    obtain rfl := h.eq_of_pipeline tried ht ht' hsame
    exact ⟨congrArg PlannedAction.action hplanned, hrest⟩
  · rintro ⟨t', ht', hsame, hfailed⟩
    exact h.eq_of_pipeline tried ht ht' hsame ▸ hfailed

/-- A document that tells each trial apart folds the outcomes as they are reported. -/
theorem folds_of_slots (h : start.Plans desired plan) (tried : start.Tried desired plan trials)
    {r : ReconcileReport} (happlied : r.applied = trials.filterMap Trial.applied?)
    (hfailures : r.failures = trials.filterMap Trial.failure?) {doc : WorkflowStatus}
    (hown : ∀ t ∈ trials, doc.slot t.pipeline = (start.slot t.pipeline).fold t)
    (hother : ∀ p, (∀ t ∈ trials, t.pipeline ≠ p) → doc.slot p = start.slot p) :
    doc.Folds desired start trials r := by
  have hspec : ∀ planned ∈ r.applied, ∃ t ∈ trials, t.planned = planned ∧
      doc.spec.pipelines.get? planned.pipeline =
        if planned.action = .remove then none else some t.spec := by
    intro planned hplanned
    rw [happlied] at hplanned
    obtain ⟨t, ht, rfl, hok⟩ := (Trial.mem_applied_iff trials planned).1 hplanned
    exact ⟨t, ht, rfl, (congrArg Slot.spec (hown t ht)).trans (Slot.spec_fold_ok hok)⟩
  have htold : ∀ p, (∃ t ∈ trials, t.pipeline = p) ∨ ∀ t ∈ trials, t.pipeline ≠ p := by
    intro p
    by_cases hp : ∃ t ∈ trials, t.pipeline = p
    · exact .inl hp
    · exact .inr fun t ht heq => hp ⟨t, ht, heq⟩
  refine ⟨?_, ?_, ?_, ?_, hown⟩
  · intro planned hplanned haction
    obtain ⟨t, ht, rfl, hdoc⟩ := hspec planned hplanned
    rw [if_neg haction] at hdoc
    exact ⟨t.spec, target_of_specFor (tried.spec t ht) haction, hdoc⟩
  · intro planned hplanned haction
    obtain ⟨t, ht, rfl, hdoc⟩ := hspec planned hplanned
    rwa [if_pos haction] at hdoc
  · intro p hp
    rcases htold p with ⟨t, ht, rfl⟩ | huntried
    · have hfailed := Trial.failed_of_not_applied ht (happlied ▸ hp)
      obtain ⟨hsame, hstatus⟩ := Slot.fold_failed (k := start.slot t.pipeline) hfailed
      exact ⟨(congrArg Slot.spec (hown t ht)).trans hsame,
        (congrArg Slot.status (hown t ht)).trans hstatus⟩
    · have hsame := hother p huntried
      exact ⟨congrArg Slot.spec hsame, congrArg Slot.status hsame⟩
  · intro p
    rw [hfailures]
    rcases htold p with ⟨t, ht, rfl⟩ | huntried
    · rw [← h.unconfirmed_own tried ht, ← hown t ht]
      rfl
    · have hnone := h.confirmed_of_untried tried huntried
      have hsame := congrArg Slot.unconfirmed (hother p huntried)
      have hdoc : doc.unconfirmed.contains p = false := (congrArg Option.isSome hsame).trans hnone
      rw [hdoc, hnone]
      simp only [Bool.false_eq_true, false_and, or_false, false_iff, not_exists, not_and]
      exact fun t ht hplanned => absurd (congrArg PlannedAction.pipeline hplanned) (huntried t ht)

/-- **The document of the working copy after a plan** folds the outcomes as they are reported. -/
theorem folds (h : start.Plans desired plan) (tried : start.Tried desired plan trials)
    (htidy : ∀ p, (start.slot p).Tidy) {r : ReconcileReport}
    (happlied : r.applied = trials.filterMap Trial.applied?)
    (hfailures : r.failures = trials.filterMap Trial.failure?) {a : Applied}
    (hslot : ∀ p, a.slot p = (trials.foldl foldTrial start).slot p) (t : Option Instant) :
    (a.toStatus t).Folds desired start trials r := by
  have hdoc : ∀ p, (a.toStatus t).slot p = (trials.foldl foldTrial start).slot p := by
    intro p
    rw [← hslot]
    exact slot_toStatus (by rw [hslot]; exact h.tidy_foldTrials tried htidy p) t
  refine h.folds_of_slots tried happlied hfailures ?_ ?_
  · intro t ht
    rw [hdoc, slot_foldTrials (h.distinct_trials tried) start ht]
  · intro p hp
    rw [hdoc, slot_foldTrials_of_ne start hp]

end Applied.Plans

namespace Host

variable {τ : Type} (agents : AgentSide τ) (deadline : Span)

/-- The status document of a workflow that is read next. -/
def document (s : Host τ) (w : String) : Option WorkflowStatus :=
  (s.store.live? s.tick.now (statusKey w)).bind fun e => WorkflowStatus.decode? e.data

/-- The status document of a workflow is missing, or it can be read. -/
def Readable (s : Host τ) (w : String) : Prop :=
  ∀ e, s.store.live? s.tick.now (statusKey w) = some e →
    ∃ doc, WorkflowStatus.decode? e.data = some doc

/-- The status document of a workflow is missing, or it can be read and is about that workflow. -/
def Legible (s : Host τ) (w : String) : Prop :=
  ∀ e, s.store.live? s.tick.now (statusKey w) = some e →
    ∃ doc, WorkflowStatus.decode? e.data = some doc ∧ doc.name = w

/-- The store has a document of a workflow that does not expire. -/
def Keeps (s : Host τ) (w : String) (doc : WorkflowStatus) : Prop :=
  ∃ e, s.store.entry? (statusKey w) = some e ∧ e.Lasting ∧ WorkflowStatus.decode? e.data = some doc

/-- The working copy that a pass over a workflow starts from. -/
def start (s : Host τ) (w : String) : Applied := .ofStatus? w (s.document w)

variable {s : Host τ} {w : String}

/-- A document that does not expire is live at every instant. -/
theorem Keeps.live {doc : WorkflowStatus} (h : s.Keeps w doc) (now : Instant) :
    s.store.live? now (statusKey w) ≠ none := by
  obtain ⟨e, hentry, hlasting, -⟩ := h
  rw [(Backend.live?_eq_some_iff _ _ _ _).2 ⟨hentry, hlasting.stage _ _⟩]
  exact Option.some_ne_none e

theorem Legible.readable (h : s.Legible w) : s.Readable w := fun e he =>
  (h e he).imp fun _ hdoc => hdoc.1

/-- **What is read of a readable document** is the document, or that there is none. -/
theorem Readable.loads (h : s.Readable w) :
    ∃ outcome b, (loadStatus w).exec (answer agents) s = (outcome, { s.tick with store := b }) ∧
      ((outcome = none ∧ ¬ s.store.DatableAt s.tick.now (statusKey w)) ∨
        outcome = some (.ok (s.document w))) ∧
      Backend.Sheds s.tick.now s.store b ∧ ((s.document w).isSome = true → b = s.store) := by
  obtain ⟨outcome, b, hexec, hloads⟩ := Host.loads agents s w
  refine ⟨outcome, b, hexec, ?_⟩
  unfold document
  cases hloads with
  | missing dead sheds =>
      rw [dead]
      exact ⟨.inr rfl, sheds, fun hsome => by cases hsome⟩
  | read live decoded =>
      rw [live, Option.bind_some, decoded]
      exact ⟨.inr rfl, .refl _ _, fun _ => rfl⟩
  | garbled live decoded =>
      obtain ⟨doc, hdoc⟩ := h _ live
      rw [hdoc] at decoded
      cases decoded
  | broken undatable sheds =>
      refine ⟨.inl ⟨rfl, undatable⟩, sheds, fun hsome => ?_⟩
      obtain ⟨doc, hdoc⟩ := Option.isSome_iff_exists.1 hsome
      obtain ⟨e, hlive, -⟩ := Option.bind_eq_some_iff.1 hdoc
      exact absurd (Backend.datableAt_of_live hlive) undatable

/-- Where a workflow has no legible document, nothing is live at its key. -/
theorem Legible.dead (h : s.Legible w) (hnone : s.document w = none) :
    s.store.live? s.tick.now (statusKey w) = none := by
  by_contra hlive
  obtain ⟨e, he⟩ := Option.ne_none_iff_exists'.1 hlive
  obtain ⟨doc, hdoc, -⟩ := h e he
  rw [document, he, Option.bind_some, hdoc] at hnone
  cases hnone

/-- The working copy that a pass starts from is sound and tidy. -/
theorem sound_start (s : Host τ) (w : String) :
    (s.start w).Sound ∧ ∀ p, ((s.start w).slot p).Tidy := by
  unfold Host.start
  cases hdoc : s.document w with
  | none => exact ⟨Applied.sound_empty w, Applied.tidy_empty w⟩
  | some doc =>
      obtain ⟨e, -, hread⟩ := Option.bind_eq_some_iff.1 hdoc
      exact ⟨Applied.sound_of_decode? hread, Applied.tidy_of_decode? hread⟩

/-- The working copy that a pass starts from is sound, tidy and about the workflow. -/
theorem Legible.start (h : s.Legible w) :
    (s.start w).Sound ∧ (∀ p, ((s.start w).slot p).Tidy) ∧ (s.start w).spec.name = w := by
  refine ⟨(s.sound_start w).1, (s.sound_start w).2, ?_⟩
  unfold Host.start
  cases hdoc : s.document w with
  | none => rfl
  | some doc =>
      obtain ⟨e, hlive, hread⟩ := Option.bind_eq_some_iff.1 hdoc
      obtain ⟨doc', hread', hname⟩ := h e hlive
      obtain rfl := Option.some.inj (hread.symm.trans hread')
      exact hname

/-- What is kept at a key after something gone may have been dropped has its dates if it had them.
-/
theorem datableAt_of_sheds {b b' : Backend} {t : Instant} (h : Backend.Sheds t b b') {key : String}
    (hdatable : ∀ now, b.DatableAt now key) (now : Instant) : b'.DatableAt now key := by
  intro e he
  rw [h.grace]
  exact hdatable now e (h.before he)

/-- **Writing the document of a working copy** keeps the document, or breaks off. -/
theorem keeps_of_saves {a : Applied} (hdated : a.Dated) (s : Host τ) :
    ∃ outcome s', (saveStatus a).exec (answer agents) s = (outcome, s') ∧ s'.side = s.side ∧
      ((outcome = none ∧ ¬ ∀ now, s.store.DatableAt now (statusKey a.spec.name)) ∨
        outcome = some (.ok ()) ∧ ∃ t, s'.Keeps a.spec.name (a.toStatus t)) := by
  obtain ⟨outcome, b, hexec, hsaves⟩ := saves agents s a
  refine ⟨outcome, _, hexec, (tick_side s.tick).trans (tick_side s), ?_⟩
  cases hsaves with
  | broken undatable _ => exact .inl ⟨rfl, fun hall => undatable (hall _)⟩
  | wrote puts =>
      exact .inr ⟨rfl, _, _, (puts.entry _).trans (if_pos rfl), ⟨rfl, rfl⟩,
        Applied.reread_toStatus hdated s.tick.now⟩

/-- **Deleting the document of a workflow** leaves none, or breaks off. -/
theorem dead_of_deletes (w : String) (s : Host τ) :
    ∃ outcome s', (deleteStatus w).exec (answer agents) s = (outcome, s') ∧ s'.side = s.side ∧
      ((outcome = none ∧ ¬ ∀ now, s.store.DatableAt now (statusKey w)) ∨
        outcome = some (.ok ()) ∧ s'.store.live? s'.now (statusKey w) = none) := by
  obtain ⟨outcome, b, hexec, hdeletes⟩ := deletes agents s w
  refine ⟨outcome, _, hexec, tick_side s, ?_⟩
  cases hdeletes with
  | broken undatable _ => exact .inl ⟨rfl, fun hall => undatable (hall _)⟩
  | deleted _ puts => exact .inr ⟨rfl, Backend.live?_of_deleted (by simp) puts _⟩
  | missing dead sheds => exact .inr ⟨rfl, (sheds.live? _).trans dead⟩

/-- **The end of a removal** leaves no document if nothing failed, and else the one that is written.
-/
theorem kept_iff_failed {attempt : Attempt} (hdated : attempt.state.Dated)
    (hname : attempt.state.spec.name = w) (s : Host τ) :
    ∃ outcome s', (if attempt.failures.isEmpty then deleteStatus w
        else saveStatus attempt.state).exec (answer agents) s = (outcome, s') ∧ s'.side = s.side ∧
      ((outcome = none ∧ ¬ ∀ now, s.store.DatableAt now (statusKey w)) ∨
        outcome = some (.ok ()) ∧
          (s'.store.live? s'.now (statusKey w) = none ↔ attempt.failures = []) ∧
          (attempt.failures ≠ [] → ∃ t, s'.Keeps w (attempt.state.toStatus t))) := by
  by_cases hall : attempt.failures = []
  · rw [if_pos (List.isEmpty_iff.2 hall)]
    obtain ⟨outcome, s', hdelete, hside, hdead⟩ := dead_of_deletes agents w s
    exact ⟨outcome, s', hdelete, hside, hdead.imp id fun ⟨hok, hdead⟩ =>
      ⟨hok, iff_of_true hdead hall, fun hfailed => absurd hall hfailed⟩⟩
  · rw [if_neg (mt List.isEmpty_iff.1 hall)]
    obtain ⟨outcome, s', hsave, hside, hkeeps⟩ := keeps_of_saves agents hdated s
    rw [hname] at hkeeps
    exact ⟨outcome, s', hsave, hside, hkeeps.imp id fun ⟨hok, t, hkeeps⟩ =>
      ⟨hok, iff_of_false (hkeeps.live _) hall, fun _ => ⟨t, hkeeps⟩⟩⟩

/-- What trying the actions of a plan comes to at a host. -/
theorem exec_plan {desired : WorkflowSpec} {start : Applied} {plan : List PlannedAction}
    (h : start.Plans desired plan) (w : String) (s : Host τ) :
    let tried := start.trials agents.answer deadline w desired plan s.side
    (Attempt.all deadline w desired plan start).exec (answer agents) s =
      (some (.ofTrials start tried.1), { s with side := tried.2 }) := by
  intro tried
  rw [exec_remote agents (Control.Remote.all _ _ _ _ _), h.run_all]

/-- **A pass over a manifest**, once the document has been read, ends with a report and a document
that fold what came of its plan, unless there was nothing to do, or it breaks off because the grace
of a dead document has no date. The document is written under the name in the spec that was applied
last. -/
theorem reconcileWorkflow_folds (proper : agents.Proper s.side) {desired : WorkflowSpec}
    {previous : Option WorkflowStatus} {start : Applied}
    (hstart : Applied.ofStatus? desired.name previous = start) (sound : start.Sound)
    (tidy : ∀ p, (start.slot p).Tidy) :
    let plan := manifestActions desired start
    let tried := start.trials agents.answer deadline desired.name desired plan s.side
    ∃ outcome s', (reconcileWorkflow deadline desired previous).exec (answer agents) s =
        (outcome, s') ∧
      ((outcome = none ∧ ¬ ∀ now, s.store.DatableAt now (statusKey start.spec.name)) ∨
        ∃ r, outcome = some (.ok r) ∧ r.Accounts plan ∧ s'.side = tried.2 ∧
          if previous.isSome = true ∧ plan = [] ∧
              start.spec.description = desired.description then
            r.statusWritten = false ∧ s'.store = s.store
          else r.statusWritten = true ∧
            ∃ doc, s'.Keeps start.spec.name doc ∧ doc.Folds desired start tried.1 r) := by
  intro plan tried
  have hplans := Applied.plans_manifest sound.apart desired
  have htried := hplans.tried agents.answer deadline desired.name s.side
  have hran := exec_plan agents deadline hplans desired.name s
  rw [reconcileWorkflow_eq, hstart, Program.exec_bind, hran]
  simp only
  have hquiet := hplans.quiet_ofTrials_iff htried previous
  by_cases hq : (Attempt.ofTrials start tried.1).quiet desired previous = true
  · rw [if_pos hq]
    refine ⟨_, _, rfl, .inr ⟨(Attempt.ofTrials start tried.1).report desired.name false, rfl,
      hplans.accounts htried rfl rfl, rfl, ?_⟩⟩
    rw [if_pos (hquiet.1 hq)]
    exact ⟨rfl, rfl⟩
  · rw [if_neg hq, Program.exec_bind]
    have hdated : ((Attempt.ofTrials start tried.1).settled desired).Dated := by
      have hkept := Attempt.dated_all agents deadline desired.name desired plan sound.dated proper
      rw [hplans.run_all] at hkept
      exact ⟨hkept.pipelines, hkept.unconfirmed⟩
    have hsettled : ((Attempt.ofTrials start tried.1).settled desired).spec.name =
        start.spec.name :=
      (Applied.frame_foldTrials tried.1 start).1
    obtain ⟨written, s', hsave, hside, hkeeps⟩ :=
      keeps_of_saves agents hdated { s with side := tried.2 }
    rw [hsave]
    rw [hsettled] at hkeeps
    rcases hkeeps with ⟨rfl, hundatable⟩ | ⟨rfl, t, hkeeps⟩
    · exact ⟨none, s', rfl, .inl ⟨rfl, hundatable⟩⟩
    · refine ⟨_, s', rfl, .inr ⟨(Attempt.ofTrials start tried.1).report desired.name true, rfl,
        hplans.accounts htried rfl rfl, hside, ?_⟩⟩
      rw [if_neg (mt hquiet.2 hq)]
      exact ⟨rfl, _, hkeeps, hplans.folds (a := (Attempt.ofTrials start tried.1).settled desired)
        htried tidy rfl rfl (fun _ => rfl) t⟩

/-- **A pass over a manifest** reads the document and folds what came of its plan into it. -/
theorem readable_folds (proper : agents.Proper s.side) (readable : s.Readable w) {key : String}
    {data : Bytes} {desired : WorkflowSpec} (name : workflowName? key = some w)
    (valid : WorkflowSpec.ofManifest w data = .ok desired) :
    let plan := manifestActions desired (s.start w)
    let tried := (s.start w).trials agents.answer deadline w desired plan s.side
    ∃ outcome s', (reconcileManifest deadline key data).exec (answer agents) s = (outcome, s') ∧
      ((outcome = none ∧ ∃ v, (v = w ∨ v = (s.start w).spec.name) ∧
          ¬ ∀ now, s.store.DatableAt now (statusKey v)) ∨
        ∃ r, outcome = some (.ok r) ∧ r.Accounts plan ∧ s'.side = tried.2 ∧
          if (s.document w).isSome = true ∧ plan = [] ∧
              (s.start w).spec.description = desired.description then
            r.statusWritten = false ∧ s'.store = s.store
          else r.statusWritten = true ∧
            ∃ doc, s'.Keeps (s.start w).spec.name doc ∧ doc.Folds desired (s.start w) tried.1 r) := by
  intro plan tried
  obtain rfl := WorkflowSpec.name_of_manifest valid
  obtain ⟨sound, tidy⟩ := s.sound_start desired.name
  obtain ⟨loaded, b, hload, hread, hsheds, hsame⟩ := readable.loads agents
  unfold reconcileManifest
  simp only [name, valid]
  rw [Program.exec_bind, hload]
  rcases hread with ⟨rfl, hundatable⟩ | rfl
  · exact ⟨none, _, rfl, .inl ⟨rfl, _, .inl rfl, fun hall => hundatable (hall _)⟩⟩
  · have hside : ({ s.tick with store := b } : Host τ).side = s.side := tick_side s
    obtain ⟨outcome, s', hexec, hpass⟩ := reconcileWorkflow_folds agents deadline
      (s := { s.tick with store := b }) (hside ▸ proper)
      (show Applied.ofStatus? desired.name (s.document desired.name) = s.start desired.name from rfl)
      sound tidy
    rw [hside] at hpass
    refine ⟨outcome, s', hexec, ?_⟩
    rcases hpass with ⟨rfl, hundatable⟩ | ⟨r, rfl, haccounts, hafter, hdocument⟩
    · exact .inl ⟨rfl, _, .inr rfl, mt (fun hall => datableAt_of_sheds hsheds hall) hundatable⟩
    · refine .inr ⟨r, rfl, haccounts, hafter, ?_⟩
      split
      · next hquiet =>
        rw [if_pos hquiet] at hdocument
        exact ⟨hdocument.1, hdocument.2.trans (hsame hquiet.1)⟩
      · next hquiet =>
        rw [if_neg hquiet] at hdocument
        exact hdocument

/-- If the document is about the workflow, it is written back to where it was read. -/
theorem reconcileManifest_folds (proper : agents.Proper s.side) (own : s.Legible w) {key : String}
    {data : Bytes} {desired : WorkflowSpec} (name : workflowName? key = some w)
    (valid : WorkflowSpec.ofManifest w data = .ok desired) :
    let plan := manifestActions desired (s.start w)
    let tried := (s.start w).trials agents.answer deadline w desired plan s.side
    ∃ outcome s', (reconcileManifest deadline key data).exec (answer agents) s = (outcome, s') ∧
      ((outcome = none ∧ ¬ ∀ now, s.store.DatableAt now (statusKey w)) ∨
        ∃ r, outcome = some (.ok r) ∧ r.Accounts plan ∧ s'.side = tried.2 ∧
          if (s.document w).isSome = true ∧ plan = [] ∧
              (s.start w).spec.description = desired.description then
            r.statusWritten = false ∧ s'.store = s.store
          else r.statusWritten = true ∧
            ∃ doc, s'.Keeps w doc ∧ doc.Folds desired (s.start w) tried.1 r) := by
  intro plan tried
  obtain ⟨outcome, s', hexec, hpass⟩ :=
    readable_folds agents deadline proper own.readable name valid
  rw [own.start.2.2] at hpass
  refine ⟨outcome, s', hexec, hpass.imp_left ?_⟩
  rintro ⟨rfl, v, rfl | rfl, hundatable⟩
  · exact ⟨rfl, hundatable⟩
  · exact ⟨rfl, hundatable⟩

/-- **A removal**, once the document has been read, ends with a report and a document that fold what
came of its plan, or without a document when nothing failed, unless it breaks off. -/
theorem removal_folds (proper : agents.Proper s.side) {doc : WorkflowStatus} {start : Applied}
    (hstart : Applied.ofStatus doc = start) (sound : start.Sound)
    (tidy : ∀ p, (start.slot p).Tidy) (hown : start.spec.name = w) :
    let plan := removalActions start
    let tried := start.trials agents.answer deadline w (.empty w) plan s.side
    ∃ outcome s', (Attempt.all deadline w (.empty w) (removalActions (.ofStatus doc))
        (.ofStatus doc) >>= fun attempt =>
          (if attempt.failures.isEmpty then deleteStatus w else saveStatus attempt.state) >>=
            fun written => pure (written.map fun _ => attempt.report w true)).exec
              (answer agents) s = (outcome, s') ∧
      ((outcome = none ∧ ¬ ∀ now, s.store.DatableAt now (statusKey w)) ∨
        ∃ r, outcome = some (.ok r) ∧ r.Accounts plan ∧ s'.side = tried.2 ∧
          (s'.store.live? s'.now (statusKey w) = none ↔ r.failures = []) ∧
          (r.failures ≠ [] → ∃ doc', s'.Keeps w doc' ∧ doc'.Folds (.empty w) start tried.1 r)) := by
  intro plan tried
  have hplans := Applied.plans_removal sound.apart w
  have htried := hplans.tried agents.answer deadline w s.side
  rw [hstart, Program.exec_bind, exec_plan agents deadline hplans w s]
  simp only
  have hdated : (Attempt.ofTrials start tried.1).state.Dated := by
    have hkept := Attempt.dated_all agents deadline w (.empty w) plan sound.dated proper
    rwa [hplans.run_all] at hkept
  have hname : (Attempt.ofTrials start tried.1).state.spec.name = w :=
    (Applied.frame_foldTrials tried.1 _).1.trans hown
  obtain ⟨written, s', hend, hafter, hkept⟩ :=
    kept_iff_failed agents hdated hname { s with side := tried.2 }
  rw [Program.exec_bind, hend]
  rcases hkept with ⟨rfl, hundatable⟩ | ⟨rfl, hgone, hkeeps⟩
  · exact ⟨none, s', rfl, .inl ⟨rfl, hundatable⟩⟩
  · refine ⟨_, s', rfl, .inr ⟨(Attempt.ofTrials start tried.1).report w true, rfl,
      hplans.accounts htried rfl rfl, hafter, hgone, fun hfailed => ?_⟩⟩
    obtain ⟨t, hkeeps⟩ := hkeeps hfailed
    exact ⟨_, hkeeps, hplans.folds (a := (Attempt.ofTrials start tried.1).state) htried tidy rfl rfl
      (fun _ => rfl) t⟩

/-- **A removal** reads the document and folds what came of its plan into it, or deletes it when
nothing failed. -/
theorem reconcileRemoval_folds (proper : agents.Proper s.side) (own : s.Legible w) {key : String}
    (name : workflowName? key = some w) :
    let plan := removalActions (s.start w)
    let tried := (s.start w).trials agents.answer deadline w (.empty w) plan s.side
    ∃ outcome s', (reconcileRemoval deadline key).exec (answer agents) s = (outcome, s') ∧
      ((outcome = none ∧ ¬ ∀ now, s.store.DatableAt now (statusKey w)) ∨
        ∃ r, outcome = some (.ok r) ∧ r.Accounts plan ∧ s'.side = tried.2 ∧
          (s'.store.live? s'.now (statusKey w) = none ↔ r.failures = []) ∧
          (r.failures ≠ [] →
            ∃ doc, s'.Keeps w doc ∧ doc.Folds (.empty w) (s.start w) tried.1 r)) := by
  intro plan tried
  obtain ⟨sound, tidy, hown⟩ := own.start
  obtain ⟨loaded, b, hload, hread, hsheds, hsame⟩ := own.readable.loads agents
  unfold reconcileRemoval
  simp only [name]
  rw [removeWorkflow_eq, Program.exec_bind, hload]
  rcases hread with ⟨rfl, hundatable⟩ | rfl
  · exact ⟨none, _, rfl, .inl ⟨rfl, fun hall => hundatable (hall _)⟩⟩
  · cases hdocument : s.document w with
    | none =>
        -- Nothing is known, so nothing is planned.
        have hstart : s.start w = .empty w := by
          rw [Host.start, hdocument]
          rfl
        have hplan : plan = [] := congrArg removalActions hstart
        have htrials : tried = ([], s.side) := by
          simp only [tried, hplan]
          rfl
        refine ⟨_, _, rfl, .inr ⟨.empty w, rfl, ⟨by rw [hplan]; exact .refl _, ?_⟩, ?_, ?_, ?_⟩⟩
        · exact (Applied.plans_removal sound.apart w).distinct
        · rw [htrials]
          exact tick_side s
        · exact iff_of_true ((hsheds.live? _).trans (own.dead hdocument)) rfl
        · exact fun hfailed => absurd rfl hfailed
    | some doc =>
        have hstart : Applied.ofStatus doc = s.start w := by
          rw [Host.start, hdocument]
          rfl
        obtain rfl := hsame (by rw [hdocument]; rfl)
        have hside : ({ s.tick with store := s.store } : Host τ).side = s.side := tick_side s
        have hremoval := removal_folds agents deadline (s := { s.tick with store := s.store })
          (hside ▸ proper) hstart sound tidy hown
        rwa [hside] at hremoval

/-- **Partial failure is folded exactly.** Take any store in either backend whose status document of
a workflow is missing or can be read and is about that workflow, and any replies of agents. A pass
over a valid manifest that does not break off ends with a report that tells every planned action
once. It leaves the store alone if there is a document, nothing was planned and the description is
that of the manifest, and else there is a document afterwards that folds the outcome of every trial
into what was known. So it is with a removal, which plans to remove every applied or unconfirmed
pipeline, and which leaves no document exactly when nothing failed. -/
theorem partial_failure_is_folded (proper : agents.Proper s.side) (own : s.Legible w) {key : String}
    (name : workflowName? key = some w) :
    (∀ data desired, WorkflowSpec.ofManifest w data = .ok desired →
      let plan := manifestActions desired (s.start w)
      let tried := (s.start w).trials agents.answer deadline w desired plan s.side
      ∃ outcome s', (reconcileManifest deadline key data).exec (answer agents) s = (outcome, s') ∧
        ((outcome = none ∧ ¬ ∀ now, s.store.DatableAt now (statusKey w)) ∨
          ∃ r, outcome = some (.ok r) ∧ r.Accounts plan ∧ s'.side = tried.2 ∧
            if (s.document w).isSome = true ∧ plan = [] ∧
                (s.start w).spec.description = desired.description then
              r.statusWritten = false ∧ s'.store = s.store
            else r.statusWritten = true ∧
              ∃ doc, s'.Keeps w doc ∧ doc.Folds desired (s.start w) tried.1 r)) ∧
      let plan := removalActions (s.start w)
      let tried := (s.start w).trials agents.answer deadline w (.empty w) plan s.side
      (∀ planned, planned ∈ plan ↔ planned.action = .remove ∧
        ((s.start w).spec.pipelines.contains planned.pipeline = true ∨
          (s.start w).unconfirmed.contains planned.pipeline = true)) ∧
      ∃ outcome s', (reconcileRemoval deadline key).exec (answer agents) s = (outcome, s') ∧
        ((outcome = none ∧ ¬ ∀ now, s.store.DatableAt now (statusKey w)) ∨
          ∃ r, outcome = some (.ok r) ∧ r.Accounts plan ∧ s'.side = tried.2 ∧
            (s'.store.live? s'.now (statusKey w) = none ↔ r.failures = []) ∧
            (r.failures ≠ [] →
              ∃ doc, s'.Keeps w doc ∧ doc.Folds (.empty w) (s.start w) tried.1 r)) :=
  ⟨fun _ _ valid => reconcileManifest_folds agents deadline proper own name valid,
    mem_removalActions_iff _, reconcileRemoval_folds agents deadline proper own name⟩

/-- One of three agents' calls succeeds: only its pipeline is recorded. -/
theorem one_schedule_of_three_recorded :
    let task : PipelineSpec := ⟨[.manual], [], .empty, []⟩
    let manifest := WorkflowSpec.ofPipelines "wf1" [("a", task), ("b", task), ("c", task)]
    let s : Host Fleet := ⟨⟨⟨0, false⟩, by decide⟩, [], .table (.new defaultGrace),
      Fleet.ofNames ["agent-a"] [.lost, .answered, .refused]
        [some "agent-a", some "agent-a", some "agent-a"]⟩
    ∃ r s' doc, (reconcileManifest .zero "workflows/wf1" manifest.encode).exec (answer Fleet.side) s =
        (some (.ok r), s') ∧ r.applied = [⟨"b", .schedule⟩] ∧ s'.Keeps "wf1" doc ∧
      doc.spec.pipelines.get? "a" = none ∧
      doc.spec.pipelines.get? "b" = manifest.resolved.pipelines.get? "b" ∧
      doc.spec.pipelines.get? "c" = none := by
  intro task manifest s
  have hpass : ((reconcileManifest .zero "workflows/wf1" manifest.encode).exec (answer Fleet.side)
      s).1.map (fun outcome => outcome.map fun r => (r.applied, r.statusWritten)) =
        some (.ok ([⟨"b", .schedule⟩], true)) := by
    decide +kernel
  have valid : WorkflowSpec.ofManifest "wf1" manifest.encode = .ok manifest.resolved := by
    decide +kernel
  have name : workflowName? "workflows/wf1" = some "wf1" := by decide +kernel
  have proper : Fleet.side.Proper s.side := Fleet.proper_ofNames _ _ (by simp)
  have own : s.Legible "wf1" := by
    intro e he
    cases he
  obtain ⟨outcome, s', hexec, hfolded⟩ :=
    (partial_failure_is_folded Fleet.side .zero proper own name).1 _ _ valid
  rw [hexec] at hpass
  rcases hfolded with ⟨rfl, -⟩ | ⟨r, rfl, -, -, hwritten⟩
  · cases hpass
  · obtain ⟨happlied, hstatus⟩ := Prod.mk.inj (Except.ok.inj (Option.some.inj hpass))
    split at hwritten
    · rw [hwritten.1] at hstatus
      cases hstatus
    · obtain ⟨-, doc, hkeeps, hfolds⟩ := hwritten
      refine ⟨r, s', doc, hexec, happlied, hkeeps, ?_, ?_, ?_⟩
      · exact (hfolds.kept "a" (by simp [happlied])).1
      · obtain ⟨d, hwanted, hrecorded⟩ := hfolds.placed ⟨"b", .schedule⟩ (by simp [happlied]) (by simp)
        exact hrecorded.trans hwanted.symm
      · exact (hfolds.kept "c" (by simp [happlied])).1

end Host

end FleetControl
