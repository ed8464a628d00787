import FleetControl.Proofs.Fleet.Calls

/-!
# What agents run after a pass without failures

A pass that attempts nothing, or everything with success, leaves a document that claims the whole
manifest. An agent on record runs what the last call that it carried out left with it. That is what
the document claims as long as the call was heard of. A timed-out update or removal that the agent
did carry out is not remembered, so a manifest that goes back to what the document claims counts as
converged while the agent has drifted.

* `Fleet.Runs` — an agent runs what a spec says;
* `Fleet.Drifted` — the last call about a pipeline was an unheard one that left something else;
* `Site.runs_iff_not_drifted` — after a pass without failures every pipeline of the manifest is run by
  its executor on record, exactly unless it has drifted.
-/

namespace FleetControl

/-- The agent of a name runs a pipeline with the triggers, tasks and selector of a spec. -/
def Fleet.Runs (x : Fleet) (name w p : String) (spec : PipelineSpec) : Prop :=
  ∃ held sent, x.held name w p = some held ∧ PipelineSpec.read.run held.spec = some sent ∧
    sent.Alike spec

/-- The last call about a pipeline that an agent carried out was an update or a removal whose reply
did not come in time, and it left something else than a spec says. -/
def Fleet.Drifted (x : Fleet) (w p : String) (spec : PipelineSpec) : Prop :=
  ∃ deed, x.last w p = some deed ∧ deed.heard = false ∧ deed.action ≠ .schedule ∧
    ¬ deed.Leaves spec

/-- An agent runs what the call that left it there says. -/
theorem Fleet.runs_iff_leaves {x : Fleet} {name w p : String} {deed : Deed}
    (h : (x.held name w p).map (·.spec) = deed.leaves) (spec : PipelineSpec) :
    x.Runs name w p spec ↔ deed.Leaves spec := by
  unfold Fleet.Runs Deed.Leaves
  rw [← h]
  constructor
  · rintro ⟨held, sent, hsome, hsent, hlike⟩
    exact ⟨held.spec, sent, by rw [hsome, Option.map_some], hsent, hlike⟩
  · rintro ⟨j, sent, hj, hsent, hlike⟩
    obtain ⟨held, hsome, rfl⟩ := Option.map_eq_some_iff.1 hj
    exact ⟨held, sent, hsome, hsent, hlike⟩

/-! ## What the document claims -/

namespace Site

variable {s : Site Fleet} (deadline : Span)

/-- After a pass without failures the document claims every pipeline of the manifest. -/
theorem Accounted.claims_of_converged (h : s.Accounted) {key w : String} {data : Bytes}
    {desired : WorkflowSpec} (name : workflowName? key = some w)
    (valid : WorkflowSpec.ofManifest w data = .ok desired) {r : ReconcileReport} {s' : Site Fleet}
    (hrun : (FleetControl.reconcileManifest deadline key data).exec (answer Fleet.side) s =
      (some (.ok r), s'))
    (hall : r.failures = []) :
    ∃ doc, s'.document w = some doc ∧ ∀ p d, desired.pipelines.get? p = some d →
      ∃ claimed, doc.spec.pipelines.get? p = some claimed ∧ claimed.Alike d := by
  obtain rfl := WorkflowSpec.name_of_manifest valid
  obtain ⟨previous, s₀, hload, hpass⟩ := passed_of_exec Fleet.side deadline name valid hrun
  have hread := (h.loadStatus desired.name).accounted
  rw [hload] at hread
  obtain ⟨hdoc, hdatable⟩ := h.document_of_exec hload
  subst hdoc
  have hsound := hread.sound desired.name
  have houtcome := manifestAttempt_outcome Fleet.side deadline desired s₀.side hsound
  obtain ⟨-, hdated, -, -, -⟩ := hread.manifestAttempt deadline desired
  have hname := houtcome.frame.1.trans (hread.name desired.name)
  rw [exec_reconcileWorkflow] at hpass
  simp only at hpass
  split at hpass
  · next hquiet =>
    obtain ⟨-, hattempt⟩ := manifestAttempt_of_quiet Fleet.side deadline hsound hquiet
    obtain ⟨doc, hdoc⟩ : ∃ doc, s₀.document desired.name = some doc := by
      simp only [Attempt.quiet, Bool.and_eq_true] at hquiet
      exact Option.isSome_iff_exists.1 hquiet.1.1
    rw [hattempt] at hpass houtcome
    cases hpass
    refine ⟨doc, hdoc, fun p d hd => ?_⟩
    have hderived := (houtcome.get?_of_converged rfl p).trans hd
    rw [hdoc] at hderived
    obtain ⟨claimed, hclaimed, rfl⟩ := Option.map_eq_some_iff.1
      ((doc.spec.get?_resolved p).symm.trans hderived)
    exact ⟨claimed, hclaimed, rfl, rfl, rfl⟩
  · generalize FleetControl.manifestAttempt Fleet.side deadline desired
      (s₀.document desired.name) s₀.side = attempt at *
    have hsettled : (attempt.1.settled desired).spec.name = desired.name := hname
    rw [exec_saveStatus Fleet.side (by
      rw [hsettled]
      exact (hread.lasting _).datableAt hdatable _)] at hpass
    cases hpass
    have hown := document_saved (s := { s₀ with side := attempt.2 })
      (Applied.reread_toStatus (a := attempt.1.settled desired)
        ⟨hdated.pipelines, hdated.unconfirmed⟩ _)
    rw [hsettled] at hown
    refine ⟨_, hown, fun p d hd => ⟨d, ?_, rfl, rfl, rfl⟩⟩
    exact (houtcome.get?_of_converged hall p).trans hd

/-! ## What the agents run -/

/-- What a document claims has an executor on record. It holds what the last call about the pipeline
left, and that is what is claimed if the call was a schedule or was heard of. -/
theorem Accounted.claimed (h : s.Accounted) {w p : String} {doc : WorkflowStatus}
    (hdoc : s.document w = some doc) {spec : PipelineSpec}
    (hspec : doc.spec.pipelines.get? p = some spec) :
    ∃ status executor deed, doc.pipelines.get? p = some status ∧
      status.executor = some executor ∧ s.side.last w p = some deed ∧
      (s.side.held executor w p).map (·.spec) = deed.leaves ∧
      (deed.heard = true ∨ deed.action = .schedule → deed.Leaves spec) := by
  obtain ⟨named, ht⟩ := h.faithful w p
  rw [hdoc] at ht
  -- The working copy differs from the document in what is derived only.
  have hslot : ((Applied.ofStatus doc).slot p).spec =
      some { spec with downstream := doc.spec.downstreamOf p } := by
    refine (doc.spec.get?_resolved p).trans ?_
    rw [hspec, Option.map_some]
  obtain ⟨status, executor, hstatus, hexecutor, rfl⟩ := ht.tells.of_some hslot
  obtain ⟨deed, hlast, hheld, hleaves⟩ := ht.runs _ executor hslot rfl
  refine ⟨status, executor, deed, hstatus, hexecutor, hlast, hheld, fun hkept => ?_⟩
  exact (hleaves hkept).congr (spec.alike_derived _).symm

/-- **What agents run after a pass without failures.** After any calls of the reconciler, a pass over
a manifest that reports no failures leaves every pipeline of the manifest with an executor on record,
and the executor runs what the manifest says, exactly unless the pipeline has drifted. -/
theorem runs_iff_not_drifted (fresh : s.Fresh) (calls : List Call) {key w : String} {data : Bytes}
    {desired : WorkflowSpec} (name : workflowName? key = some w)
    (valid : WorkflowSpec.ofManifest w data = .ok desired) {r : ReconcileReport} {s' : Site Fleet}
    (hrun : (reconcileManifest deadline key data).exec (answer Fleet.side)
      (s.after deadline calls) = (some (.ok r), s'))
    (hall : r.failures = []) {p : String} {d : PipelineSpec}
    (hd : desired.pipelines.get? p = some d) :
    ∃ doc status executor, s'.document w = some doc ∧ doc.pipelines.get? p = some status ∧
      status.executor = some executor ∧
      (s'.side.Runs executor w p d ↔ ¬ s'.side.Drifted w p d) := by
  have hbefore := fresh.accounted.after deadline calls
  have hafter := (hbefore.reconcileManifest deadline name data).1.accounted
  rw [hrun] at hafter
  obtain ⟨doc, hdoc, hclaims⟩ := hbefore.claims_of_converged deadline name valid hrun hall
  obtain ⟨claimed, hclaimed, halike⟩ := hclaims p d hd
  obtain ⟨status, executor, deed, hstatus, hexecutor, hlast, hheld, hleaves⟩ :=
    hafter.claimed hdoc hclaimed
  refine ⟨doc, status, executor, hdoc, hstatus, hexecutor, ?_⟩
  rw [Fleet.runs_iff_leaves hheld]
  constructor
  · rintro hleft ⟨other, hother, -, -, hnot⟩
    rw [hlast] at hother
    obtain rfl := Option.some.inj hother
    exact hnot hleft
  · intro hstayed
    by_contra hnot
    have hneither : ¬ (deed.heard = true ∨ deed.action = .schedule) :=
      fun hkept => hnot ((hleaves hkept).congr halike)
    rw [not_or, Bool.not_eq_true] at hneither
    exact hstayed ⟨deed, hlast, hneither.1, hneither.2, hnot⟩

/-- An update that was heard of leaves what the manifest says. -/
theorem runs_after_update :
    let manifest := fun image : String => WorkflowSpec.ofPipelines "wf1"
      [("a", ⟨[.manual], [⟨"run", image, [], .empty⟩], .empty, []⟩)]
    let s := start (Fleet.ofNames ["agent-a"] [] [some "agent-a"])
    let calls := [Call.manifest "workflows/wf1" (manifest "x").encode]
    ∃ r s' executor,
      (reconcileManifest .zero "workflows/wf1" (manifest "y").encode).exec (answer Fleet.side)
        (s.after .zero calls) = (some (.ok r), s') ∧ r.failures = [] ∧
      s'.side.Runs executor "wf1" "a" ⟨[.manual], [⟨"run", "y", [], .empty⟩], .empty, []⟩ := by
  intro manifest s calls
  have fresh : s.Fresh := fresh_start (by simp) _ _
  have valid : WorkflowSpec.ofManifest "wf1" (manifest "y").encode = .ok (manifest "y").resolved := by
    decide +kernel
  have hrun : ((reconcileManifest .zero "workflows/wf1" (manifest "y").encode).exec
      (answer Fleet.side) (s.after .zero calls)).1 =
        some (.ok ⟨"wf1", [⟨"a", .update⟩], [], true⟩) := by
    decide +kernel
  have hheard : (((reconcileManifest .zero "workflows/wf1" (manifest "y").encode).exec
      (answer Fleet.side) (s.after .zero calls)).2.side.last "wf1" "a").map Deed.heard =
        some true := by
    decide +kernel
  have name : workflowName? "workflows/wf1" = some "wf1" := by decide +kernel
  have hd : (manifest "y").resolved.pipelines.get? "a" =
      some ⟨[.manual], [⟨"run", "y", [], .empty⟩], .empty, []⟩ := by decide +kernel
  generalize hout : (reconcileManifest .zero "workflows/wf1" (manifest "y").encode).exec
    (answer Fleet.side) (s.after .zero calls) = out at hrun hheard ⊢
  obtain ⟨outcome, s'⟩ := out
  obtain rfl : outcome = _ := hrun
  obtain ⟨doc, status, executor, -, -, -, hruns⟩ :=
    runs_iff_not_drifted .zero fresh calls name valid hout rfl hd
  refine ⟨_, s', executor, rfl, rfl, hruns.2 ?_⟩
  rintro ⟨deed, hlast, hunheard, -⟩
  rw [hlast, Option.map_some, hunheard] at hheard
  cases hheard

/-- After an update that was not heard of, going back to the manifest before counts as converged, and
the agent runs what the update left. -/
theorem drifted_after_reverted_update :
    let manifest := fun image : String => WorkflowSpec.ofPipelines "wf1"
      [("a", ⟨[.manual], [⟨"run", image, [], .empty⟩], .empty, []⟩)]
    let s := start (Fleet.ofNames ["agent-a"] [.answered, .unheard] [some "agent-a"])
    let calls := [Call.manifest "workflows/wf1" (manifest "x").encode,
      Call.manifest "workflows/wf1" (manifest "y").encode]
    ∃ r s' doc status,
      (reconcileManifest .zero "workflows/wf1" (manifest "x").encode).exec (answer Fleet.side)
        (s.after .zero calls) = (some (.ok r), s') ∧ r.failures = [] ∧
      s'.document "wf1" = some doc ∧ doc.pipelines.get? "a" = some status ∧
      status.executor = some "agent-a" ∧
      ¬ s'.side.Runs "agent-a" "wf1" "a" ⟨[.manual], [⟨"run", "x", [], .empty⟩], .empty, []⟩ := by
  intro manifest s calls
  have hrun : ((reconcileManifest .zero "workflows/wf1" (manifest "x").encode).exec
      (answer Fleet.side) (s.after .zero calls)).1 = some (.ok ⟨"wf1", [], [], false⟩) := by
    decide +kernel
  generalize hend : ((reconcileManifest .zero "workflows/wf1" (manifest "x").encode).exec
    (answer Fleet.side) (s.after .zero calls)).2 = s'
  have hexecutor : ((s'.document "wf1").bind fun doc => doc.pipelines.get? "a").bind (·.executor) =
      some "agent-a" := by
    subst hend
    decide +kernel
  have hheld : (s'.side.held "agent-a" "wf1" "a").map
      (fun held => (PipelineSpec.read.run held.spec).map (·.tasks)) =
        some (some [⟨"run", "y", [], .empty⟩]) := by
    subst hend
    decide +kernel
  obtain ⟨status, hstatus, hnamed⟩ := Option.bind_eq_some_iff.1 hexecutor
  obtain ⟨doc, hdoc, hstatus⟩ := Option.bind_eq_some_iff.1 hstatus
  refine ⟨_, s', doc, status, Prod.ext hrun hend, rfl, hdoc, hstatus, hnamed, ?_⟩
  rintro ⟨held, sent, hsome, hsent, hlike⟩
  rw [hsome, Option.map_some, hsent, Option.map_some, hlike.tasks] at hheld
  simp at hheld

end Site

end FleetControl
