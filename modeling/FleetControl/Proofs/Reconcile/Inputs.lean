import FleetControl.Proofs.Exchanges
import FleetControl.Proofs.Reconcile.Folding

/-!
# What planned actions look up

A plan is made once, from the document that was read. Its actions look up what they send in a
working copy that the actions before them have changed, and the plan of a removal walks two maps one
after the other. An action that finds nothing there would fail without a call, with an error that no
document ought to lead to. None does: a document that was read has no pipeline both applied and
unconfirmed, so a plan has one action for each pipeline, and an action changes what is known about
its own pipeline only. When the turn of an action comes, the working copy therefore still knows
about its pipeline what the plan was made from.

* `Attempt.turns` — the actions of a list with the working copies that they work on;
* `Attempt.Turn.Supplied` — an action that finds a spec to send; `Applied.Plans.supplied` — those of
  a plan do;
* `ReconcileReport.Tells` — a report tells what came of actions;
* `Host.Refuses`, `Host.CarriesOut` — the two ways in which a pass can go;
* `Host.planned_actions_find_their_spec` — a pass over a manifest and a removal.
-/

namespace FleetControl

open Simulation (Backend)

/-! ## Turns -/

/-- An action whose turn has come: the working copy that it works on, and what comes of it. -/
structure Attempt.Turn where
  planned : PlannedAction
  copy : Applied
  outcome : Except ControlError Unit

namespace Attempt.Turn

/-- The action finds a spec to send, and what comes of it is what comes of its call. -/
structure Supplied (t : Turn) (desired : WorkflowSpec) : Prop where
  found : (t.copy.specFor desired t.planned).isSome = true
  outcome : t.outcome = .ok () ∨ ∃ e, t.outcome = .error (.agent e)

/-- The action, if it succeeded. -/
def applied? (t : Turn) : Option PlannedAction :=
  match t.outcome with
  | .ok _ => some t.planned
  | .error _ => none

/-- The failure of the action, if it failed. -/
def failure? (t : Turn) : Option DispatchFailure :=
  match t.outcome with
  | .ok _ => none
  | .error e => some ⟨t.planned.pipeline, t.planned.action, e.message⟩

end Attempt.Turn

section Turns

variable {τ : Type} (answer : (r : Request) → τ → r.Reply × τ) (deadline : Span) (w : String)
variable (desired : WorkflowSpec)

/-- The turns of actions that are carried out one after the other. -/
def Attempt.turns : List PlannedAction → Applied → τ → List Attempt.Turn
  | [], _, _ => []
  | planned :: rest, a, x =>
    let r := (a.apply deadline w desired planned).run answer x
    ⟨planned, a, r.1.1⟩ :: turns rest r.1.2 r.2

/-- Every action has its turn, in the order of the list. -/
theorem Attempt.map_planned_turns (actions : List PlannedAction) (a : Applied) (x : τ) :
    (turns answer deadline w desired actions a x).map (·.planned) = actions := by
  induction actions generalizing a x with
  | nil => rfl
  | cons planned rest ih => exact congrArg (planned :: ·) (ih _ _)

/-- What a list of actions reports is what came of their turns. -/
theorem Attempt.all_eq_turns (actions : List PlannedAction) (a : Applied) (x : τ) :
    let attempt := ((all deadline w desired actions a).run answer x).1
    let turns := turns answer deadline w desired actions a x
    attempt.applied = turns.filterMap Attempt.Turn.applied? ∧
      attempt.failures = turns.filterMap Attempt.Turn.failure? := by
  induction actions generalizing a x with
  | nil => exact ⟨rfl, rfl⟩
  | cons planned rest ih =>
      rw [run_all_cons]
      simp only [turns]
      generalize (a.apply deadline w desired planned).run answer x = r
      obtain ⟨⟨outcome, a'⟩, x'⟩ := r
      obtain ⟨happlied, hfailures⟩ := ih a' x'
      cases outcome with
      | ok u => exact ⟨congrArg (planned :: ·) happlied, hfailures⟩
      | error e => exact ⟨happlied, congrArg (_ :: ·) hfailures⟩

/-- An action that finds a spec to send is supplied. -/
theorem Attempt.Turn.supplied_of_specFor {planned : PlannedAction} {a : Applied}
    (hspec : (a.specFor desired planned).isSome = true) (x : τ) :
    Supplied ⟨planned, a, ((a.apply deadline w desired planned).run answer x).1.1⟩ desired := by
  refine ⟨hspec, ?_⟩
  obtain ⟨spec, hspec⟩ := Option.isSome_iff_exists.1 hspec
  rw [Applied.run_apply, hspec]
  simp only
  generalize (Scheduler.dispatch deadline planned.action w planned.pipeline spec
    (a.statusFor planned)).run answer x = r
  obtain ⟨⟨outcome, status⟩, x'⟩ := r
  cases outcome with
  | ok u => exact .inl rfl
  | error e => exact .inr ⟨e, rfl⟩

/-- **No turn takes away what a later one looks up**: from any working copy that knows about the
pipelines of the actions what the first one knows, as long as these are different ones. -/
theorem Attempt.supplied_turns {start : Applied} {actions : List PlannedAction}
    (hdistinct : (actions.map (·.pipeline)).Nodup)
    (hspec : ∀ planned ∈ actions, (start.specFor desired planned).isSome = true) {a : Applied}
    (hsame : ∀ planned ∈ actions, a.slot planned.pipeline = start.slot planned.pipeline) (x : τ) :
    ∀ t ∈ turns answer deadline w desired actions a x,
      t.Supplied desired ∧ t.copy.slot t.planned.pipeline = start.slot t.planned.pipeline := by
  induction actions generalizing a x with
  | nil => exact fun t ht => absurd ht List.not_mem_nil
  | cons planned rest ih =>
      obtain ⟨hfresh, hrest⟩ := List.nodup_cons.1 hdistinct
      obtain ⟨hown, hlater⟩ := List.forall_mem_cons.1 hsame
      obtain ⟨hfound, hspecs⟩ := List.forall_mem_cons.1 hspec
      have hkept : ∀ other ∈ rest,
          ((a.apply deadline w desired planned).run answer x).1.2.slot other.pipeline =
            start.slot other.pipeline := by
        intro other hother
        have hne : other.pipeline ≠ planned.pipeline := fun heq =>
          hfresh (List.mem_map.2 ⟨other, hother, heq⟩)
        exact ((Applied.effect answer deadline w desired planned a x).others _ hne).trans
          (hlater other hother)
      refine List.forall_mem_cons.2 ⟨⟨?_, hown⟩, ih hrest hspecs hkept _⟩
      exact Attempt.Turn.supplied_of_specFor answer deadline w desired
        (by rwa [Applied.specFor_congr desired hown]) x

/-- **The actions of a plan find what they send**, each what the plan was made from. -/
theorem Applied.Plans.supplied {start : Applied} {plan : List PlannedAction}
    (h : start.Plans desired plan) (x : τ) :
    ∀ t ∈ Attempt.turns answer deadline w desired plan start x,
      t.Supplied desired ∧ t.copy.slot t.planned.pipeline = start.slot t.planned.pipeline :=
  Attempt.supplied_turns answer deadline w desired h.distinct
    (fun planned hplanned => specFor_of_needs (h.needed planned hplanned)) (fun _ _ => rfl) x

end Turns

/-! ## Passes -/

/-- A report tells what came of actions, in their order. -/
structure ReconcileReport.Tells (r : ReconcileReport) (turns : List Attempt.Turn) : Prop where
  applied : r.applied = turns.filterMap Attempt.Turn.applied?
  failures : r.failures = turns.filterMap Attempt.Turn.failure?

namespace Host

variable {τ : Type} (agents : AgentSide τ) (deadline : Span)

/-- The turns of a plan that is made from the document of a workflow. -/
def turns (s : Host τ) (w : String) (desired : WorkflowSpec) (plan : List PlannedAction) :
    List Attempt.Turn :=
  Attempt.turns agents.answer deadline w desired plan (s.start w) s.side

/-- A pass refuses what it was given: it asks for nothing but a document, and ends with an error
about JSON or about the manifest. The store and the agents are as they were. -/
structure Refuses (s : Host τ) (p : Control (Except ControlError ReconcileReport)) : Prop where
  asked : ∀ r ∈ p.asked (answer agents) s, ∃ v, r = .store (.get (statusKey v))
  error : ∃ e, (p.exec (answer agents) s).1 = some (.error e) ∧ (e = .json ∨ ∃ v, e = .invalid v)
  store : (p.exec (answer agents) s).2.store = s.store
  side : (p.exec (answer agents) s).2.side = s.side

/-- How a pass ends that does not refuse: it breaks off at a document whose grace has no date, or
reports what came of its actions. -/
def Concludes (s : Host τ) (w : String) (desired : WorkflowSpec) (plan : List PlannedAction)
    (result : Option (Except ControlError ReconcileReport) × Host τ) : Prop :=
  (result.1 = none ∧ ∃ v, (v = w ∨ v = (s.start w).spec.name) ∧
      ¬ ∀ now, s.store.DatableAt now (statusKey v)) ∨
    ∃ r, result.1 = some (.ok r) ∧ r.Tells (s.turns agents deadline w desired plan) ∧
      result.2.side =
        ((Attempt.all deadline w desired plan (s.start w)).run agents.answer s.side).2

/-- A pass carries out a plan: the plan is about different pipelines, each of its actions finds a
spec to send, and it ends with what came of them. -/
structure CarriesOut (s : Host τ) (w : String) (desired : WorkflowSpec) (plan : List PlannedAction)
    (p : Control (Except ControlError ReconcileReport)) : Prop where
  planned : (s.turns agents deadline w desired plan).map (·.planned) = plan
  distinct : (plan.map (·.pipeline)).Nodup
  supplied : ∀ t ∈ s.turns agents deadline w desired plan, t.Supplied desired
  concludes : s.Concludes agents deadline w desired plan (p.exec (answer agents) s)

/-- What is left of a pass once its actions have been carried out: it deals with the document of a
workflow and reports, or breaks off there. -/
def Settles (s : Host τ) (v w : String) (attempt : Attempt)
    (q : Control (Except ControlError ReconcileReport)) : Prop :=
  (q.exec (answer agents) s).2.side = s.side ∧
    (((q.exec (answer agents) s).1 = none ∧ ¬ ∀ now, s.store.DatableAt now (statusKey v)) ∨
      ∃ written, (q.exec (answer agents) s).1 = some (.ok (attempt.report w written)))

/-- Writing a document settles a pass. -/
theorem settles_saveStatus (s : Host τ) (w : String) (attempt : Attempt) (a : Applied) :
    s.Settles agents a.spec.name w attempt
      (saveStatus a >>= fun written => pure (written.map fun _ => attempt.report w true)) := by
  obtain ⟨outcome, b, hexec, hsaves⟩ := saves agents s a
  have hside : ({ s.tick.tick with store := b } : Host τ).side = s.side :=
    (tick_side s.tick).trans (tick_side s)
  unfold Settles
  rw [Program.exec_bind_pure, hexec]
  refine ⟨hside, ?_⟩
  cases hsaves with
  | wrote puts => exact .inr ⟨true, rfl⟩
  | broken undatable sheds => exact .inl ⟨rfl, fun hall => undatable (hall _)⟩

/-- So does deleting it. -/
theorem settles_deleteStatus (s : Host τ) (w : String) (attempt : Attempt) :
    s.Settles agents w w attempt
      (deleteStatus w >>= fun written => pure (written.map fun _ => attempt.report w true)) := by
  obtain ⟨outcome, b, hexec, hdeletes⟩ := deletes agents s w
  unfold Settles
  rw [Program.exec_bind_pure, hexec]
  refine ⟨tick_side s, ?_⟩
  cases hdeletes with
  | deleted live puts => exact .inr ⟨true, rfl⟩
  | missing dead sheds => exact .inr ⟨true, rfl⟩
  | broken undatable sheds => exact .inl ⟨rfl, fun hall => undatable (hall _)⟩

/-- Reading a document asks for nothing else. -/
theorem asked_loadStatus (s : Host τ) (w : String) :
    ∀ r ∈ (loadStatus w).asked (answer agents) s, r = .store (.get (statusKey w)) := by
  have honly : (loadStatus w).Only (· = .store (.get (statusKey w))) := by
    rw [loadStatus_eq]
    exact .bind (.request rfl) fun _ => .pure _
  exact honly.asked _ _

variable {s : Host τ} {w : String} {desired : WorkflowSpec} {plan : List PlannedAction}

/-- **A plan is carried out** and the pass settles. -/
theorem concludes_of_settles (hplans : (s.start w).Plans desired plan) {s' : Host τ}
    (hside : s'.side = s.side) (hsheds : Backend.Sheds s.tick.now s.store s'.store)
    {rest : Attempt → Control (Except ControlError ReconcileReport)}
    (hsettles : ∀ attempt s₁, attempt.state.spec.name = (s.start w).spec.name →
      ∃ v, (v = w ∨ v = (s.start w).spec.name) ∧ Settles agents s₁ v w attempt (rest attempt)) :
    s.Concludes agents deadline w desired plan
      ((Attempt.all deadline w desired plan (s.start w) >>= rest).exec (answer agents) s') := by
  let r := (Attempt.all deadline w desired plan (s.start w)).run agents.answer s.side
  have hname : r.1.state.spec.name = (s.start w).spec.name :=
    (Attempt.all_outcome agents.answer deadline w desired hplans.distinct _ _).frame.1
  have hrun : (Attempt.all deadline w desired plan (s.start w)).exec (answer agents) s' =
      (some r.1, { s' with side := r.2 }) := by
    rw [exec_remote agents (Control.Remote.all _ _ _ _ _), hside]
  obtain ⟨v, hv, hafter, hends⟩ := hsettles r.1 { s' with side := r.2 } hname
  rw [Program.exec_bind, hrun]
  refine hends.imp (fun ⟨hnone, hundatable⟩ => ⟨hnone, v, hv, ?_⟩) fun ⟨written, hreport⟩ => ?_
  · exact mt (fun hall => datableAt_of_sheds hsheds hall) hundatable
  · obtain ⟨happlied, hfailures⟩ :=
      Attempt.all_eq_turns agents.answer deadline w desired plan (s.start w) s.side
    exact ⟨_, hreport, ⟨happlied, hfailures⟩, hafter⟩

/-- **A pass that begins by reading a document** refuses it or carries out its plan. -/
theorem refuses_or_carriesOut (hplans : (s.start w).Plans desired plan)
    {pass : Option WorkflowStatus → Control (Except ControlError ReconcileReport)}
    (hpass : ∀ s' : Host τ, s'.side = s.side → Backend.Sheds s.tick.now s.store s'.store →
      s.Concludes agents deadline w desired plan
        ((pass (s.document w)).exec (answer agents) s')) :
    let p := loadStatus w >>= fun loaded =>
      match loaded with
      | .error e => pure (.error e)
      | .ok previous => pass previous
    s.Refuses agents p ∨ s.CarriesOut agents deadline w desired plan p := by
  intro p
  obtain ⟨loaded, b, hload, hloads⟩ := loads agents s w
  have hside : ({ s.tick with store := b } : Host τ).side = s.side := tick_side s
  have hcarries : s.Concludes agents deadline w desired plan (p.exec (answer agents) s) →
      s.CarriesOut agents deadline w desired plan p := fun hconcludes =>
    ⟨Attempt.map_planned_turns _ _ _ _ _ _ _, hplans.distinct,
      fun t ht => (hplans.supplied agents.answer deadline w desired s.side t ht).1, hconcludes⟩
  have hexec : p.exec (answer agents) s = match (loadStatus w).exec (answer agents) s with
      | (some (.error e), s') => (some (.error e), s')
      | (some (.ok previous), s') => (pass previous).exec (answer agents) s'
      | (none, s') => (none, s') := by
    rw [Program.exec_bind]
    rcases (loadStatus w).exec (answer agents) s with ⟨_ | e | previous, s'⟩ <;> rfl
  rw [hload] at hexec
  cases hloads with
  | missing dead sheds =>
      have hdoc : s.document w = none := by rw [document, dead, Option.bind_none]
      refine .inr (hcarries ?_)
      rw [hexec, ← hdoc]
      exact hpass _ hside sheds
  | @read e doc live decoded =>
      have hdoc : s.document w = some doc := by rw [document, live, Option.bind_some, decoded]
      refine .inr (hcarries ?_)
      rw [hexec, ← hdoc]
      exact hpass _ hside (.refl _ _)
  | garbled live decoded =>
      refine .inl ⟨?_, ⟨.json, by rw [hexec], .inl rfl⟩, by rw [hexec], by rw [hexec]; exact hside⟩
      have hasked : p.asked (answer agents) s = (loadStatus w).asked (answer agents) s := by
        rw [Program.asked_bind, hload]
        exact List.append_nil _
      rw [hasked]
      exact fun r hr => ⟨w, asked_loadStatus agents s w r hr⟩
  | broken undatable sheds =>
      refine .inr (hcarries ?_)
      rw [hexec]
      exact .inl ⟨rfl, w, .inl rfl, fun hall => undatable (hall _)⟩

/-- A pass that ends with an error at once refuses. -/
theorem refuses_pure {e : ControlError} (h : ∃ v, e = .invalid v) :
    s.Refuses agents (pure (.error e)) :=
  ⟨fun _ hr => absurd hr List.not_mem_nil, ⟨e, rfl, .inr h⟩, rfl, rfl⟩

/-- What is left of a removal once the document has been read. -/
def removalRest (w : String) :
    Option WorkflowStatus → Control (Except ControlError ReconcileReport)
  | none => pure (.ok (.empty w))
  | some doc =>
    Attempt.all deadline w (.empty w) (removalActions (.ofStatus doc)) (.ofStatus doc) >>=
      fun attempt =>
        (if attempt.failures.isEmpty then deleteStatus w else saveStatus attempt.state) >>=
          fun written => pure (written.map fun _ => attempt.report w true)

theorem removeWorkflow_eq_removalRest (w : String) :
    removeWorkflow deadline w = loadStatus w >>= fun loaded =>
      match loaded with
      | .error e => pure (.error e)
      | .ok previous => removalRest deadline w previous := by
  rw [removeWorkflow_eq]
  congr 1
  funext loaded
  rcases loaded with e | _ | doc <;> rfl

/-- **A removal carries out its plan**, which is empty if there is no document. -/
theorem concludes_removalRest {s' : Host τ} (hside : s'.side = s.side)
    (hsheds : Backend.Sheds s.tick.now s.store s'.store) :
    s.Concludes agents deadline w (.empty w) (removalActions (s.start w))
      ((removalRest deadline w (s.document w)).exec (answer agents) s') := by
  have hplans := Applied.plans_removal (s.sound_start w).1.apart w
  cases hdocument : s.document w with
  | none =>
      have hplan : removalActions (s.start w) = [] := by
        rw [start, hdocument]
        rfl
      rw [hplan]
      exact .inr ⟨.empty w, rfl, ⟨rfl, rfl⟩, hside⟩
  | some doc =>
      have hstart : Applied.ofStatus doc = s.start w := by
        rw [start, hdocument]
        rfl
      rw [removalRest, hstart]
      refine concludes_of_settles agents deadline hplans hside hsheds fun attempt s₁ hname => ?_
      split
      · exact ⟨w, .inl rfl, settles_deleteStatus agents s₁ w attempt⟩
      · refine ⟨(s.start w).spec.name, .inr rfl, ?_⟩
        rw [← hname]
        exact settles_saveStatus agents s₁ w attempt attempt.state

/-- **A pass over a valid manifest carries out its plan**, once the document has been read. -/
theorem concludes_reconcileWorkflow (hname : desired.name = w) {s' : Host τ}
    (hside : s'.side = s.side) (hsheds : Backend.Sheds s.tick.now s.store s'.store) :
    s.Concludes agents deadline w desired (manifestActions desired (s.start w))
      ((reconcileWorkflow deadline desired (s.document w)).exec (answer agents) s') := by
  subst hname
  have hplans := Applied.plans_manifest (s.sound_start desired.name).1.apart desired
  rw [reconcileWorkflow_eq]
  refine concludes_of_settles agents deadline hplans hside hsheds fun attempt s₁ hname => ?_
  refine ⟨(s.start desired.name).spec.name, .inr rfl, ?_⟩
  split
  · exact ⟨rfl, .inr ⟨false, rfl⟩⟩
  · have hsettled : (attempt.settled desired).spec.name = attempt.state.spec.name := rfl
    rw [← hname, ← hsettled]
    exact settles_saveStatus agents s₁ _ attempt _

/-- **Planned actions find their spec.** Take any store in either backend, with whatever it holds at
the key of a status document, any agents, and any manifest. A pass over the manifest either refuses
it, or carries out its plan. Then each action finds a spec to send when its turn comes, so what
comes of it is what comes of its call. So it is with a removal, which is about each pipeline that is
applied or unconfirmed, once. -/
theorem planned_actions_find_their_spec (s : Host τ) (key : String) :
    (∀ data, s.Refuses agents (reconcileManifest deadline key data) ∨
      ∃ w desired, workflowName? key = some w ∧ WorkflowSpec.ofManifest w data = .ok desired ∧
        s.CarriesOut agents deadline w desired (manifestActions desired (s.start w))
          (reconcileManifest deadline key data)) ∧
      (s.Refuses agents (reconcileRemoval deadline key) ∨
        ∃ w, workflowName? key = some w ∧
          s.CarriesOut agents deadline w (.empty w) (removalActions (s.start w))
            (reconcileRemoval deadline key)) := by
  refine ⟨fun data => ?_, ?_⟩
  · unfold reconcileManifest
    cases hname : workflowName? key with
    | none => exact .inl (refuses_pure agents ⟨_, rfl⟩)
    | some w =>
        cases hvalid : WorkflowSpec.ofManifest w data with
        | error e =>
            simp only [hvalid]
            exact .inl (refuses_pure agents ⟨_, rfl⟩)
        | ok desired =>
            simp only [hvalid]
            have hdesired := WorkflowSpec.name_of_manifest hvalid
            have hplans := Applied.plans_manifest (s.sound_start w).1.apart desired
            refine (refuses_or_carriesOut agents deadline hplans fun s' hside hsheds => ?_).imp id
              fun hcarries => ⟨w, desired, rfl, hvalid, hcarries⟩
            exact concludes_reconcileWorkflow agents deadline hdesired hside hsheds
  · unfold reconcileRemoval
    cases hname : workflowName? key with
    | none => exact .inl (refuses_pure agents ⟨_, rfl⟩)
    | some w =>
        have hplans := Applied.plans_removal (s.sound_start w).1.apart w
        simp only [removeWorkflow_eq_removalRest]
        refine (refuses_or_carriesOut agents deadline hplans fun s' hside hsheds => ?_).imp id
          fun hcarries => ⟨w, rfl, hcarries⟩
        exact concludes_removalRest agents deadline hside hsheds

/-- A removal of two pipelines, one applied and one unconfirmed, of which the first call is lost. -/
theorem applied_and_unconfirmed_removed_once :
    let doc := WorkflowStatus.ofParts (.ofPipelines "wf1" [("b", .empty)])
      (.ofList [("b", ⟨some "agent-a", "scheduled", none⟩)])
      (.ofList [("a", ⟨.empty, ⟨some "agent-a", "", none⟩⟩)]) none
    let s : Host Fleet := ⟨⟨⟨0, false⟩, by decide⟩, [],
      .table ⟨KeyMap.empty.insert (statusKey "wf1") ⟨doc.encode, 1, none, none⟩, 1,
        defaultGrace.forDates⟩, Fleet.ofNames ["agent-a"] [.lost, .answered] []⟩
    let turns := s.turns Fleet.side .zero "wf1" (.empty "wf1") (removalActions (s.start "wf1"))
    turns.map (·.planned) = [⟨"b", .remove⟩, ⟨"a", .remove⟩] ∧
      (∀ t ∈ turns, t.Supplied (.empty "wf1")) ∧
      ∃ r, ((reconcileRemoval .zero "workflows/wf1").exec (answer Fleet.side) s).1 = some (.ok r) ∧
        r.Tells turns ∧ r.applied = [⟨"a", .remove⟩] := by
  intro doc s turns
  have hpass : ((reconcileRemoval .zero "workflows/wf1").exec (answer Fleet.side) s).1.map
      (fun outcome => outcome.map fun r => r.applied) = some (.ok [⟨"a", .remove⟩]) := by
    decide +kernel
  have hname : workflowName? "workflows/wf1" = some "wf1" := by decide +kernel
  have hplan : removalActions (s.start "wf1") = [⟨"b", .remove⟩, ⟨"a", .remove⟩] := by
    decide +kernel
  rcases (planned_actions_find_their_spec Fleet.side .zero s "workflows/wf1").2 with
    hrefuses | ⟨w, hw, hcarries⟩
  · obtain ⟨e, herror, -⟩ := hrefuses.error
    rw [herror] at hpass
    cases hpass
  · obtain rfl := Option.some.inj (hname.symm.trans hw)
    refine ⟨hcarries.planned.trans hplan, hcarries.supplied, ?_⟩
    rcases hcarries.concludes with ⟨hnone, -⟩ | ⟨r, hreport, htells, -⟩
    · rw [hnone] at hpass
      cases hpass
    · rw [hreport] at hpass
      exact ⟨r, hreport, htells, Except.ok.inj (Option.some.inj hpass)⟩

end Host

end FleetControl
