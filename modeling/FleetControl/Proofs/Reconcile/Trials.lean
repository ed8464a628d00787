import FleetControl.Proofs.Reconcile.Pass

/-!
# Each action on its own

A plan is made from the working copy that a pass starts from, and each of its actions works on what
that copy knows about its own pipeline. No other action of the plan changes this, so what an action
sends and what status it starts from can be read off the first copy, whatever came of the actions
before it. The pass then is a list of trials, each judged on its own: what is known about a pipeline
afterwards is what was known before, with the outcome of its own trial folded in.

* `Trial` — an action that was tried, with the spec that was sent and what came of it;
* `Applied.trials` — the actions of a plan, each tried on the first working copy;
* `Attempt.run_all_eq` — carrying out a plan is trying its actions;
* `Slot.fold` and `Applied.slot_foldTrials` — what a trial does to its own pipeline;
* `Slot.Tidy` — what a document that was read knows about a pipeline; a document keeps all of it.
-/

namespace FleetControl

/-- An action that was tried: the spec that was sent, and what came of it. -/
structure Trial where
  planned : PlannedAction
  spec : PipelineSpec
  result : Scheduler.Result

namespace Trial

/-- The pipeline that the action is about. -/
abbrev pipeline (t : Trial) : String := t.planned.pipeline

/-- The action, if it succeeded. -/
def applied? (t : Trial) : Option PlannedAction :=
  match t.result.1 with
  | .ok _ => some t.planned
  | .error _ => none

/-- The failure of the action, if it failed. -/
def failure? (t : Trial) : Option DispatchFailure :=
  match t.result.1 with
  | .ok _ => none
  | .error e => some ⟨t.planned.pipeline, t.planned.action, (ControlError.agent e).message⟩

/-- The action failed. -/
def Failed (t : Trial) : Prop := ∃ e, t.result.1 = .error e

end Trial

/-! ## Trying the actions of a plan -/

namespace Applied

/-- What an action sends is told by what is known about its pipeline. -/
theorem specFor_congr {a b : Applied} (desired : WorkflowSpec) {planned : PlannedAction}
    (h : a.slot planned.pipeline = b.slot planned.pipeline) :
    a.specFor desired planned = b.specFor desired planned := by
  unfold specFor
  rw [spec_of_slot h, unconfirmed_of_slot h]

/-- So is the status that it starts from. -/
theorem statusFor_congr {a b : Applied} {planned : PlannedAction}
    (h : a.slot planned.pipeline = b.slot planned.pipeline) :
    a.statusFor planned = b.statusFor planned := by
  unfold statusFor
  rw [status_of_slot h, unconfirmed_of_slot h]

/-- An action that is needed has a spec to send. -/
theorem specFor_of_needs {a : Applied} {desired : WorkflowSpec} {planned : PlannedAction}
    (h : a.needs desired planned.pipeline = some planned.action) :
    (a.specFor desired planned).isSome = true := by
  obtain ⟨p, action⟩ := planned
  cases needed h with
  | schedule wanted => simp [specFor, wanted]
  | update wanted => simp [specFor, wanted]
  | remove _ claimed =>
      rcases claimed with hspec | hunconfirmed
      · obtain ⟨d, hd⟩ := (KeyMap.contains_iff _ _).1 hspec
        simp [specFor, hd]
      · obtain ⟨u, hu⟩ := (KeyMap.contains_iff _ _).1 hunconfirmed
        cases hspec : a.spec.pipelines.get? p <;> simp [specFor, hspec, hu]

/-- What an action sends aims at the spec that the pipeline has after a success. -/
theorem target_of_specFor {a : Applied} {desired : WorkflowSpec} {planned : PlannedAction}
    {spec : PipelineSpec} (h : a.specFor desired planned = some spec)
    (haction : planned.action ≠ .remove) : desired.pipelines.get? planned.pipeline = some spec := by
  unfold specFor at h
  cases hact : planned.action <;> simp_all

/-- Fold the outcome of a trial in. -/
def foldTrial (a : Applied) (t : Trial) : Applied := a.fold t.planned t.spec t.result

section Trials

variable {τ : Type} (answer : (r : Request) → τ → r.Reply × τ) (deadline : Span) (w : String)
variable (desired : WorkflowSpec)

/-- The actions of a plan, one after the other, each tried on what the working copy that the plan
was made from knows about its pipeline. -/
def trials (start : Applied) : List PlannedAction → τ → List Trial × τ
  | [], x => ([], x)
  | planned :: rest, x =>
    let spec := (start.specFor desired planned).getD .empty
    let r := (Scheduler.dispatch deadline planned.action w planned.pipeline spec
      (start.statusFor planned)).run answer x
    let others := trials start rest r.2
    (⟨planned, spec, r.1⟩ :: others.1, others.2)

/-- Every action is tried, in the order of the plan. -/
theorem map_planned_trials (start : Applied) (actions : List PlannedAction) (x : τ) :
    (start.trials answer deadline w desired actions x).1.map (·.planned) = actions := by
  induction actions generalizing x with
  | nil => rfl
  | cons planned rest ih => exact congrArg (planned :: ·) (ih _)

/-- A trial sends the spec that the plan has for it. -/
theorem spec_of_mem_trials {start : Applied} {actions : List PlannedAction} {x : τ} {t : Trial}
    (h : t ∈ (start.trials answer deadline w desired actions x).1) :
    t.spec = (start.specFor desired t.planned).getD .empty := by
  induction actions generalizing x with
  | nil => cases h
  | cons planned rest ih =>
      rcases List.mem_cons.1 h with rfl | h
      · rfl
      · exact ih h

end Trials

end Applied

/-- What comes of trials that are folded into a working copy. -/
def Attempt.ofTrials (a : Applied) (trials : List Trial) : Attempt :=
  ⟨trials.filterMap Trial.applied?, trials.filterMap Trial.failure?, trials.foldl Applied.foldTrial a⟩

/-- An action changes nothing about the pipelines of the others. -/
theorem Applied.slot_fold_others {a start : Applied} {planned : PlannedAction}
    {rest : List PlannedAction} (hfresh : planned.pipeline ∉ rest.map (·.pipeline))
    (hsame : ∀ other ∈ rest, a.slot other.pipeline = start.slot other.pipeline)
    (spec : PipelineSpec) (result : Scheduler.Result) :
    ∀ other ∈ rest, (a.fold planned spec result).slot other.pipeline =
      start.slot other.pipeline := by
  intro other hother
  have hne : other.pipeline ≠ planned.pipeline := fun heq =>
    hfresh (List.mem_map.2 ⟨other, hother, heq⟩)
  rw [a.slot_fold planned spec result hne]
  exact hsame other hother

/-- **Carrying out a plan is trying its actions**: from any working copy that knows the same about
their pipelines, as long as these are different ones and each action has a spec to send. -/
theorem Attempt.run_all_eq {τ : Type} (answer : (r : Request) → τ → r.Reply × τ) (deadline : Span)
    (w : String) (desired : WorkflowSpec) {start : Applied} {actions : List PlannedAction}
    (hdistinct : (actions.map (·.pipeline)).Nodup)
    (hspec : ∀ planned ∈ actions, (start.specFor desired planned).isSome = true) {a : Applied}
    (hsame : ∀ planned ∈ actions, a.slot planned.pipeline = start.slot planned.pipeline) (x : τ) :
    (Attempt.all deadline w desired actions a).run answer x =
      let t := start.trials answer deadline w desired actions x
      (.ofTrials a t.1, t.2) := by
  induction actions generalizing a x with
  | nil => rfl
  | cons planned rest ih =>
      obtain ⟨hfresh, hrest⟩ := List.nodup_cons.1 hdistinct
      obtain ⟨hown, hlater⟩ := List.forall_mem_cons.1 hsame
      obtain ⟨spec, hsent⟩ := Option.isSome_iff_exists.1 (hspec planned List.mem_cons_self)
      have hothers := Applied.slot_fold_others hfresh hlater spec
      rw [run_all_cons, Applied.run_apply, Applied.specFor_congr desired hown,
        Applied.statusFor_congr hown, hsent]
      simp only [Applied.trials, hsent, Option.getD_some]
      generalize (Scheduler.dispatch deadline planned.action w planned.pipeline spec
        (start.statusFor planned)).run answer x = r
      rw [ih hrest (fun other hother => hspec other (List.mem_cons_of_mem _ hother)) (hothers r.1)]
      obtain ⟨⟨outcome, status⟩, x'⟩ := r
      cases outcome <;> rfl

/-! ## One pipeline -/

namespace Slot

/-- What is known about a pipeline after its action was tried. -/
def fold (k : Slot) (t : Trial) : Slot :=
  match t.result with
  | (.ok _, status) =>
    if t.planned.action = .remove then ⟨none, none, none⟩ else ⟨some t.spec, some status, none⟩
  | (.error _, status) =>
    if t.planned.action = .schedule ∧ status.executor.isSome = true then
      { k with unconfirmed := some ⟨t.spec, status⟩ }
    else k

/-- What a document that was read knows about a pipeline: a status belongs to an applied pipeline,
and an unconfirmed pipeline is not applied and names an executor. -/
structure Tidy (k : Slot) : Prop where
  within : k.status.isSome = true → k.spec.isSome = true
  apart : ∀ u, k.unconfirmed = some u → k.spec = none ∧ u.status.executor.isSome = true

/-- A trial keeps that up, since only a pipeline that is not applied is scheduled. -/
theorem Tidy.fold {k : Slot} (h : k.Tidy) {t : Trial}
    (hschedule : t.planned.action = .schedule → k.spec = none) : (k.fold t).Tidy := by
  unfold Slot.fold
  split
  · split
    · exact ⟨by simp, by simp⟩
    · exact ⟨by simp, by simp⟩
  · next status heq =>
    split
    · next hleft =>
      refine ⟨h.within, fun u hu => ⟨hschedule hleft.1, ?_⟩⟩
      obtain rfl := Option.some.inj hu
      exact hleft.2
    · exact h

end Slot

namespace Applied

/-- A trial folds into what is known about its own pipeline. -/
theorem slot_foldTrial (a : Applied) (t : Trial) :
    (a.foldTrial t).slot t.pipeline = (a.slot t.pipeline).fold t := by
  obtain ⟨planned, spec, outcome, status⟩ := t
  cases outcome with
  | ok u => exact a.slot_fold_ok planned spec status
  | error e => exact a.slot_fold_error planned spec e status

/-- Trials about other pipelines change nothing. -/
theorem slot_foldTrials_of_ne {trials : List Trial} {p : String} (a : Applied)
    (h : ∀ t ∈ trials, t.pipeline ≠ p) : (trials.foldl foldTrial a).slot p = a.slot p := by
  induction trials generalizing a with
  | nil => rfl
  | cons t rest ih =>
      rw [List.foldl_cons, ih _ fun t' ht' => h t' (List.mem_cons_of_mem _ ht')]
      exact a.slot_fold t.planned t.spec t.result (Ne.symm (h t List.mem_cons_self))

/-- **What is known about a pipeline** after trials of different pipelines is told by its own trial.
-/
theorem slot_foldTrials {trials : List Trial} (hdistinct : (trials.map (·.pipeline)).Nodup)
    (a : Applied) {t : Trial} (ht : t ∈ trials) :
    (trials.foldl foldTrial a).slot t.pipeline = (a.slot t.pipeline).fold t := by
  induction trials generalizing a with
  | nil => cases ht
  | cons t' rest ih =>
      obtain ⟨hfresh, hrest⟩ := List.nodup_cons.1 hdistinct
      have hne : ∀ other ∈ rest, other.pipeline ≠ t'.pipeline := fun other hother heq =>
        hfresh (List.mem_map.2 ⟨other, hother, heq⟩)
      rw [List.foldl_cons]
      rcases List.mem_cons.1 ht with rfl | ht
      · rw [slot_foldTrials_of_ne _ hne, slot_foldTrial]
      · rw [ih hrest _ ht]
        exact congrArg (Slot.fold · t) (a.slot_fold t'.planned t'.spec t'.result (hne t ht))

/-- Trials keep the name and the description of the workflow. -/
theorem frame_foldTrials (trials : List Trial) (a : Applied) :
    (trials.foldl foldTrial a).spec.name = a.spec.name ∧
      (trials.foldl foldTrial a).spec.description = a.spec.description := by
  induction trials generalizing a with
  | nil => exact ⟨rfl, rfl⟩
  | cons t rest ih =>
      obtain ⟨hname, hdescription⟩ := a.frame_fold t.planned t.spec t.result
      exact ⟨(ih _).1.trans hname, (ih _).2.trans hdescription⟩

end Applied

/-! ## Documents -/

namespace WorkflowStatus

/-- What a document knows about a pipeline. -/
def slot (s : WorkflowStatus) (p : String) : Slot :=
  ⟨s.spec.pipelines.get? p, s.pipelines.get? p, s.unconfirmed.get? p⟩

end WorkflowStatus

namespace Applied

/-- **A document keeps what is tidy.** -/
theorem slot_toStatus {a : Applied} {p : String} (h : (a.slot p).Tidy) (t : Option Instant) :
    (a.toStatus t).slot p = a.slot p := by
  have hstatus : (a.toStatus t).pipelines.get? p = a.pipelines.get? p := by
    refine (KeyMap.get?_filter _ _ _).trans ?_
    cases hs : a.pipelines.get? p with
    | none => rfl
    | some status => exact if_pos (h.within (by simp [slot, hs]))
  have hunconfirmed : (a.toStatus t).unconfirmed.get? p = a.unconfirmed.get? p := by
    refine (KeyMap.get?_filter _ _ _).trans ?_
    cases hu : a.unconfirmed.get? p with
    | none => rfl
    | some u =>
        obtain ⟨hspec, hexecutor⟩ := h.apart u hu
        have hlacks := (KeyMap.contains_eq_false_iff _ p).2 hspec
        exact if_pos (by simp [hlacks, hexecutor])
  simp only [WorkflowStatus.slot, slot, hstatus, hunconfirmed]
  rfl

/-- What was read is tidy. -/
theorem tidy_of_decode? {bytes : Bytes} {doc : WorkflowStatus}
    (h : WorkflowStatus.decode? bytes = some doc) (p : String) : ((ofStatus doc).slot p).Tidy := by
  have hcoherent := WorkflowStatus.coherent_of_decode? h
  have hcontains := doc.spec.contains_resolved p
  constructor
  · intro hstatus
    exact hcontains.trans (hcoherent.within p hstatus)
  · intro u hu
    have hapart := hcoherent.apart p ((KeyMap.contains_iff _ _).2 ⟨u, hu⟩)
    exact ⟨(KeyMap.contains_eq_false_iff _ _).1 (hcontains.trans hapart), hcoherent.asked p u hu⟩

/-- So is what is known before there is a document. -/
theorem tidy_empty (w p : String) : ((empty w).slot p).Tidy :=
  ⟨fun h => by simp [empty, slot] at h, fun u hu => by simp [empty, slot] at hu⟩

end Applied

end FleetControl
