import FleetControl.Proofs.Fleet.Basic
import FleetControl.Proofs.Reconcile.Pass

/-!
# Failed actions come back

The document that a pass writes claims only what succeeded, so the next pass over the same manifest
finds most of what failed still to be done. A schedule or a removal that failed is always attempted
again. An update that failed is compared anew, and then the derived list of the pipeline is that of
the pipelines around it that *did* succeed: if the list was all that the update would have changed,
and the other pipelines now agree with the manifest about who waits for this one, then the update is
forgotten.

* `Forgotten` — the failed updates that the next pass does not attempt;
* `Attempt.Outcome.needs_reread_eq_none_iff` — what the next pass needs of a pipeline that failed;
* `Site.reconcileManifest_attempts_again_iff` — a pipeline that failed is attempted again, exactly
  unless its update is forgotten.
-/

namespace FleetControl

/-- A report lists an action on the pipeline, as applied or as failed. -/
def ReconcileReport.Attempts (r : ReconcileReport) (p : String) : Prop :=
  (∃ planned ∈ r.applied, planned.pipeline = p) ∨ ∃ f ∈ r.failures, f.pipeline = p

/-- The update of a pipeline is forgotten: the manifest changes nothing of it but who waits for it,
and the pipelines for which an action was applied are the only ones about which the last-applied spec
and the manifest disagree in that. -/
def Forgotten (last desired : WorkflowSpec) (applied : List PlannedAction) (p : String) : Prop :=
  ∃ old new, last.pipelines.get? p = some old ∧ desired.pipelines.get? p = some new ∧
    old.Alike new ∧
    ∀ q, (∀ planned ∈ applied, planned.pipeline ≠ q) → (last.Waits q p ↔ desired.Waits q p)

/-- Resolving the last-applied spec does not change which updates are forgotten. -/
theorem forgotten_resolved (last desired : WorkflowSpec) (applied : List PlannedAction)
    (p : String) : Forgotten last.resolved desired applied p ↔ Forgotten last desired applied p := by
  unfold Forgotten
  simp only [WorkflowSpec.get?_resolved, WorkflowSpec.waits_resolved]
  constructor
  · rintro ⟨_, new, hderived, hnew, halike, hwaits⟩
    obtain ⟨old, hold, rfl⟩ := Option.map_eq_some_iff.1 hderived
    exact ⟨old, new, hold, hnew, (old.alike_derived _).trans halike, hwaits⟩
  · rintro ⟨old, new, hold, hnew, halike, hwaits⟩
    exact ⟨{ old with downstream := last.downstreamOf p }, new, by rw [hold, Option.map_some], hnew,
      (old.alike_derived _).symm.trans halike, hwaits⟩

/-! ## The working copy that is read back -/

namespace Attempt.Outcome

variable {desired : WorkflowSpec} {a : Applied} {attempt : Attempt}

/-- The pipelines that wait for another after a pass over a manifest: as the manifest says, for those
to which an action was applied, and as before, for the others. -/
theorem waits_iff (h : Outcome desired (manifestActions desired a) a attempt) (q p : String) :
    attempt.state.spec.Waits q p ↔
      if ∃ planned ∈ attempt.applied, planned.pipeline = q then desired.Waits q p
      else a.spec.Waits q p := by
  split
  · next happlied =>
    obtain ⟨planned, hplanned, rfl⟩ := happlied
    exact WorkflowSpec.waits_congr (by rw [h.get?_of_applied hplanned]) p
  · next hnot =>
    have hsame := h.get?_of_not_applied fun planned hplanned heq => hnot ⟨planned, hplanned, heq⟩
    exact WorkflowSpec.waits_congr (by rw [hsame]) p

/-- The waiters after a pass are those of the manifest if the pipelines without an applied action
agree with it. -/
theorem waits_agree_iff (h : Outcome desired (manifestActions desired a) a attempt) (p : String) :
    (∀ q, desired.Waits q p ↔ attempt.state.spec.Waits q p) ↔
      ∀ q, (∀ planned ∈ attempt.applied, planned.pipeline ≠ q) →
        (a.spec.Waits q p ↔ desired.Waits q p) := by
  constructor
  · intro hagree q hq
    have hnot : ¬ ∃ planned ∈ attempt.applied, planned.pipeline = q := by
      rintro ⟨planned, hplanned, heq⟩
      exact hq planned hplanned heq
    have hwaits := h.waits_iff q p
    rw [if_neg hnot] at hwaits
    exact hwaits.symm.trans (hagree q).symm
  · intro hagree q
    rw [h.waits_iff]
    split
    · exact Iff.rfl
    · next hnot =>
      exact (hagree q fun planned hplanned heq => hnot ⟨planned, hplanned, heq⟩).symm

/-- A pipeline whose removal failed is still claimed or suspected by the document that is left. -/
theorem claims_reread (h : Outcome desired (manifestActions desired a) a attempt)
    (hsound : a.Sound) {f : DispatchFailure} (hf : f ∈ attempt.failures)
    (hremove : f.action = .remove) (t : Option Instant)
    (hclaimed : a.spec.pipelines.contains f.pipeline = true ∨
      a.unconfirmed.contains f.pipeline = true) :
    let again := Applied.ofStatus ((attempt.settled desired).toStatus t)
    again.spec.pipelines.contains f.pipeline = true ∨
      again.unconfirmed.contains f.pipeline = true := by
  obtain ⟨hkept, hunconfirmed⟩ := h.failed f hf
  have hspec : (attempt.settled desired).spec.pipelines.contains f.pipeline =
      a.spec.pipelines.contains f.pipeline := by
    rw [KeyMap.contains, KeyMap.contains, ← hkept]
    rfl
  rcases hclaimed with hclaimed | hclaimed
  · left
    change (attempt.settled desired).spec.resolved.pipelines.contains f.pipeline = true
    rw [WorkflowSpec.contains_resolved, hspec]
    exact hclaimed
  · right
    obtain ⟨u, hu⟩ := (KeyMap.contains_iff _ _).1 hclaimed
    have hstill : (attempt.settled desired).unconfirmed.get? f.pipeline = some u := by
      rw [← hu]
      apply hunconfirmed
      rw [hremove]
      simp
    rw [KeyMap.contains_iff]
    refine ⟨u, ?_⟩
    change ((attempt.settled desired).unconfirmed.filter _).get? f.pipeline = some u
    rw [KeyMap.get?_filter, hstill, hspec, hsound.apart _ hclaimed]
    simp [hsound.executor _ _ hu]

/-- The manifest has the pipeline: nothing is needed exactly if what is applied is like it and is
waited for by the same pipelines. -/
theorem needs_reread_of_wanted (h : Outcome desired (manifestActions desired a) a attempt)
    (hresolved : desired.resolved = desired) {f : DispatchFailure} (hf : f ∈ attempt.failures)
    (t : Option Instant) {new : PipelineSpec} (hd : desired.pipelines.get? f.pipeline = some new) :
    (Applied.ofStatus ((attempt.settled desired).toStatus t)).needs desired f.pipeline = none ↔
      ∃ old, a.spec.pipelines.get? f.pipeline = some old ∧ old.Alike new ∧
        ∀ q, (∀ planned ∈ attempt.applied, planned.pipeline ≠ q) →
          (a.spec.Waits q f.pipeline ↔ desired.Waits q f.pipeline) := by
  obtain ⟨hkept, -⟩ := h.failed f hf
  have hread : (Applied.ofStatus ((attempt.settled desired).toStatus t)).spec =
      (attempt.settled desired).spec.resolved := rfl
  have hget : (attempt.settled desired).spec.resolved.pipelines.get? f.pipeline =
      (a.spec.pipelines.get? f.pipeline).map fun d =>
        { d with downstream := (attempt.settled desired).spec.downstreamOf f.pipeline } := by
    rw [WorkflowSpec.get?_resolved, ← hkept]
    rfl
  simp only [Applied.needs, hd, hread, hget, PipelineSpec.needs_eq_none_iff]
  cases hold : a.spec.pipelines.get? f.pipeline with
  | none => simp
  | some old =>
      simp only [Option.map_some, Option.some.injEq]
      have hnew : (attempt.settled desired).spec.resolved.pipelines.get? f.pipeline =
          some { old with
            downstream := (attempt.settled desired).spec.downstreamOf f.pipeline } := by
        rw [hget, hold, Option.map_some]
      rw [eq_comm, WorkflowSpec.pipeline_eq_iff hresolved
        (WorkflowSpec.resolved_resolved _) hd hnew]
      have hwaits : (∀ q, desired.Waits q f.pipeline ↔
          (attempt.settled desired).spec.resolved.Waits q f.pipeline) ↔
            ∀ q, (∀ planned ∈ attempt.applied, planned.pipeline ≠ q) →
              (a.spec.Waits q f.pipeline ↔ desired.Waits q f.pipeline) := by
        rw [← h.waits_agree_iff]
        exact forall_congr' fun q => iff_congr Iff.rfl (WorkflowSpec.waits_resolved _ q _)
      rw [hwaits]
      constructor
      · rintro ⟨halike, hagree⟩
        exact ⟨old, rfl, (old.alike_derived _).trans halike.symm, hagree⟩
      · rintro ⟨_, rfl, halike, hagree⟩
        exact ⟨halike.symm.trans (old.alike_derived _), hagree⟩

/-- The manifest does not have the pipeline: it was to be removed, so it is still applied or still
unconfirmed, and something is needed. -/
theorem needs_reread_of_unwanted (h : Outcome desired (manifestActions desired a) a attempt)
    (hsound : a.Sound) {f : DispatchFailure} (hf : f ∈ attempt.failures) (t : Option Instant)
    (hd : desired.pipelines.get? f.pipeline = none) :
    (Applied.ofStatus ((attempt.settled desired).toStatus t)).needs desired f.pipeline ≠ none := by
  -- What was needed when the action failed.
  have hneeded : a.needs desired f.pipeline = some f.action :=
    (mem_manifestActions_iff desired a ⟨f.pipeline, f.action⟩).1
      ((h.reported _).2 (.inr ⟨f, hf, rfl⟩))
  generalize hact : f.action = action at hneeded
  cases Applied.needed hneeded with
  | schedule wanted | update wanted =>
      rw [hd] at wanted
      cases wanted
  | remove _ claimed =>
      have hclaims := h.claims_reread hsound hf hact t claimed
      simp only [Applied.needs, hd]
      rw [if_pos (by simpa using hclaims)]
      simp

/-- **What the next pass needs of a pipeline that failed**, if it starts from the document that this
one leaves: nothing exactly if an update is forgotten. -/
theorem needs_reread_eq_none_iff (h : Outcome desired (manifestActions desired a) a attempt)
    (hresolved : desired.resolved = desired) (hsound : a.Sound)
    {f : DispatchFailure} (hf : f ∈ attempt.failures) (t : Option Instant) :
    (Applied.ofStatus ((attempt.settled desired).toStatus t)).needs desired f.pipeline = none ↔
      Forgotten a.spec desired attempt.applied f.pipeline := by
  unfold Forgotten
  cases hd : desired.pipelines.get? f.pipeline with
  | some new =>
      rw [h.needs_reread_of_wanted hresolved hf t hd]
      constructor
      · rintro ⟨old, hold, halike, hagree⟩
        exact ⟨old, new, hold, rfl, halike, hagree⟩
      · rintro ⟨old, new', hold, hnew, halike, hagree⟩
        obtain rfl := Option.some.inj hnew
        exact ⟨old, hold, halike, hagree⟩
  | none =>
      refine iff_of_false (h.needs_reread_of_unwanted hsound hf t hd) ?_
      rintro ⟨_, _, -, hnone, -⟩
      cases hnone

end Attempt.Outcome

/-! ## Two passes -/

namespace Site

variable {τ : Type} (agents : AgentSide τ) (deadline : Span)

/-- A pass attempts an action on exactly the pipelines that need one. -/
theorem attempts_iff (desired : WorkflowSpec) {previous : Option WorkflowStatus} (x : τ)
    (h : (Applied.ofStatus? desired.name previous).Sound) (written : Bool) (p : String) :
    ((manifestAttempt agents deadline desired previous x).1.report desired.name written).Attempts p ↔
      (Applied.ofStatus? desired.name previous).needs desired p ≠ none := by
  have houtcome := manifestAttempt_outcome agents deadline desired x h
  rw [Option.ne_none_iff_exists']
  constructor
  · rintro (⟨planned, hplanned, rfl⟩ | ⟨f, hf, rfl⟩)
    · exact ⟨_, (mem_manifestActions_iff _ _ _).1 ((houtcome.reported _).2 (.inl hplanned))⟩
    · exact ⟨_, (mem_manifestActions_iff _ _ ⟨f.pipeline, f.action⟩).1
        ((houtcome.reported _).2 (.inr ⟨f, hf, rfl⟩))⟩
  · rintro ⟨action, haction⟩
    have hmem := (mem_manifestActions_iff desired _ ⟨p, action⟩).2 haction
    rcases (houtcome.reported _).1 hmem with happlied | ⟨f, hf, heq⟩
    · exact .inl ⟨_, happlied, rfl⟩
    · exact .inr ⟨f, hf, (congrArg PlannedAction.pipeline heq).symm⟩

/-- A pass that failed to apply something wrote the document that its actions lead to. -/
theorem written_of_failures {desired : WorkflowSpec} {previous : Option WorkflowStatus}
    {s s₁ : Site τ} {r : ReconcileReport}
    (h : (reconcileWorkflow deadline desired previous).exec (answer agents) s =
      (some (.ok r), s₁)) (hfailed : r.failures ≠ []) :
    let attempt := manifestAttempt agents deadline desired previous s.side
    r = attempt.1.report desired.name true ∧
      s₁ = ({ s with side := attempt.2 } : Site τ).saved (attempt.1.settled desired) := by
  rw [exec_reconcileWorkflow] at h
  generalize manifestAttempt agents deadline desired previous s.side = attempt at h ⊢
  simp only at h
  split at h
  · next hquiet =>
    cases h
    rw [Attempt.quiet_eq_false desired previous hfailed] at hquiet
    cases hquiet
  · by_cases hdatable : s.store.DatableAt
        ({ s with side := attempt.2 } : Site τ).tick.tick.now
        (statusKey (attempt.1.settled desired).spec.name)
    · rw [exec_saveStatus agents hdatable] at h
      cases h
      exact ⟨rfl, rfl⟩
    · rw [exec_saveStatus_of_not_datable agents hdatable] at h
      cases h

/-- A pass ends with a report if the document can be written. -/
theorem reports_of_datable {desired : WorkflowSpec} {previous : Option WorkflowStatus} {s : Site τ}
    (hsound : (Applied.ofStatus? desired.name previous).Sound)
    (hdatable : ∀ now, s.store.DatableAt now
      (statusKey (Applied.ofStatus? desired.name previous).spec.name)) :
    ∃ written s', (reconcileWorkflow deadline desired previous).exec (answer agents) s =
      (some (.ok ((manifestAttempt agents deadline desired previous s.side).1.report desired.name
        written)), s') := by
  have hname := (manifestAttempt_outcome agents deadline desired s.side hsound).frame.1
  rw [exec_reconcileWorkflow]
  generalize manifestAttempt agents deadline desired previous s.side = attempt at hname ⊢
  simp only
  split
  · exact ⟨_, _, rfl⟩
  · have hkey : (attempt.1.settled desired).spec.name =
        (Applied.ofStatus? desired.name previous).spec.name := hname
    rw [exec_saveStatus agents (by rw [hkey]; exact hdatable _)]
    exact ⟨_, _, rfl⟩

/-- A foreign document stays what it is as long as it is read at all. -/
theorem document_saved_of_ne {w : String} {s : Site τ} {a : Applied} {doc : WorkflowStatus}
    {e : Entry} (hentry : s.store.entries.get? (statusKey w) = some e)
    (hdoc : WorkflowStatus.decode? e.data = some doc) (hne : w ≠ a.spec.name)
    (hkept : (s.saved a).document w ≠ none) : (s.saved a).document w = some doc := by
  have hkey : statusKey w ≠ statusKey a.spec.name := fun h => hne (statusKey_inj h)
  obtain ⟨doc', hdoc'⟩ := Option.ne_none_iff_exists'.1 hkept
  obtain ⟨e', hlive, hread⟩ := Option.bind_eq_some_iff.1 hdoc'
  simp only [saved, Memory.live?_written_of_ne _ _ _ hkey] at hlive
  have hentry' := ((Memory.live?_eq_some_iff _ _ _ _).1 hlive).1
  rw [hentry] at hentry'
  obtain rfl := Option.some.inj hentry'
  rw [hdoc', ← hread, hdoc]

/-- What is read after a pass in which something failed, and what that makes the next pass need. -/
private theorem read_again {desired : WorkflowSpec} {previous : Option WorkflowStatus}
    (hresolved : desired.resolved = desired) {s : Site τ} {attempt : Attempt}
    (hentry : ∀ doc, previous = some doc →
      ∃ e, s.store.entries.get? (statusKey desired.name) = some e ∧
        WorkflowStatus.decode? e.data = some doc)
    (hsound : (Applied.ofStatus? desired.name previous).Sound)
    (houtcome : Attempt.Outcome desired
      (manifestActions desired (Applied.ofStatus? desired.name previous))
      (Applied.ofStatus? desired.name previous) attempt)
    (hdated : attempt.state.Dated) {f : DispatchFailure} (hf : f ∈ attempt.failures)
    (hkept : (s.saved (attempt.settled desired)).document desired.name ≠ none) :
    ∃ again, (s.saved (attempt.settled desired)).document desired.name = some again ∧
      again.name = attempt.state.spec.name ∧
      ((Applied.ofStatus again).needs desired f.pipeline = none ↔
        ∃ doc, previous = some doc ∧ doc.name = desired.name ∧
          Forgotten doc.spec desired attempt.applied f.pipeline) := by
  have hframe : (attempt.settled desired).spec.name =
      (Applied.ofStatus? desired.name previous).spec.name := houtcome.frame.1
  have hsettled : (attempt.settled desired).Dated := ⟨hdated.pipelines, hdated.unconfirmed⟩
  have hread := houtcome.needs_reread_eq_none_iff hresolved hsound hf (some s.tick.now.val)
  have hfresh := document_saved (Applied.reread_toStatus hsettled s.tick.now)
  cases previous with
  | none =>
      have hown : (attempt.settled desired).spec.name = desired.name := hframe
      rw [hown] at hfresh
      refine ⟨_, hfresh, rfl, ?_⟩
      rw [hread]
      simp [Forgotten, Applied.ofStatus?, Applied.empty, WorkflowSpec.empty]
  | some doc =>
      by_cases hown : doc.name = desired.name
      · have hsame : (attempt.settled desired).spec.name = desired.name := hframe.trans hown
        rw [hsame] at hfresh
        refine ⟨_, hfresh, rfl, ?_⟩
        rw [hread]
        change Forgotten doc.spec.resolved desired attempt.applied f.pipeline ↔ _
        rw [forgotten_resolved]
        simp [hown]
      · -- The document of another workflow was not written over, so the next pass is as this one.
        obtain ⟨e, hget, hdoc⟩ := hentry doc rfl
        have hne : desired.name ≠ (attempt.settled desired).spec.name := by
          rw [hframe]
          exact fun h => hown h.symm
        refine ⟨doc, document_saved_of_ne hget hdoc hne hkept, houtcome.frame.1.symm, ?_⟩
        have hneeded := (mem_manifestActions_iff desired _ ⟨f.pipeline, f.action⟩).1
          ((houtcome.reported _).2 (.inr ⟨f, hf, rfl⟩))
        change (Applied.ofStatus? desired.name (some doc)).needs desired f.pipeline = none ↔ _
        simp only at hneeded
        simp [hneeded, hown]

/-- **A pipeline that failed is attempted again** by the next pass over the same manifest, exactly
unless its update is forgotten. -/
theorem reconcileManifest_attempts_again_iff {key w : String} {data : Bytes}
    {desired : WorkflowSpec} (name : workflowName? key = some w)
    (valid : WorkflowSpec.ofManifest w data = .ok desired) {s s₁ : Site τ}
    (hproper : agents.Proper s.side) {r₁ : ReconcileReport}
    (hfirst : (reconcileManifest deadline key data).exec (answer agents) s = (some (.ok r₁), s₁))
    (hkept : s₁.document w ≠ none) {f : DispatchFailure} (hf : f ∈ r₁.failures) :
    ∃ r₂ s₂, (reconcileManifest deadline key data).exec (answer agents) s₁ =
        (some (.ok r₂), s₂) ∧
      (r₂.Attempts f.pipeline ↔
        ¬ ∃ doc, s.document w = some doc ∧ doc.name = w ∧
          Forgotten doc.spec desired r₁.applied f.pipeline) := by
  obtain ⟨hname, hresolved⟩ : desired.name = w ∧ desired.resolved = desired := by
    obtain ⟨raw, hraw, rfl⟩ := WorkflowSpec.ofManifest_ok valid
    exact ⟨hraw, raw.resolved_resolved⟩
  subst hname
  -- What the first pass read, did and wrote.
  obtain ⟨previous, s₀, hload, hpass⟩ := passed_of_exec agents deadline name valid hfirst
  obtain ⟨hdoc, -, hs₀⟩ := document_of_exec agents hload
  have hsound := sound_of_document hdoc desired.name
  have houtcome := manifestAttempt_outcome agents deadline desired s₀.side hsound
  have hdated : (manifestAttempt agents deadline desired previous s₀.side).1.state.Dated := by
    apply Attempt.dated_all agents deadline _ _ _ hsound.dated
    rw [hs₀]
    simpa using hproper
  have hentry : ∀ doc, previous = some doc →
      ∃ e, s₀.store.entries.get? (statusKey desired.name) = some e ∧
        WorkflowStatus.decode? e.data = some doc := by
    rintro doc rfl
    obtain ⟨e, hlive, hread⟩ := Option.bind_eq_some_iff.1 hdoc
    rw [hs₀, Memory.find_of_live hlive]
    exact ⟨e, ((Memory.live?_eq_some_iff _ _ _ _).1 hlive).1, hread⟩
  obtain ⟨hr₁, hs₁⟩ := written_of_failures agents deadline hpass (List.ne_nil_of_mem hf)
  generalize manifestAttempt agents deadline desired previous s₀.side = attempt at *
  have hfailed : f ∈ attempt.1.failures := by
    rw [hr₁] at hf
    exact hf
  rw [hs₁] at hkept
  obtain ⟨again, hagain, hwritten, hneeds⟩ :=
    read_again (s := { s₀ with side := attempt.2 }) hresolved hentry hsound houtcome hdated hfailed hkept
  rw [← hs₁] at hagain
  -- The second pass writes where the first one wrote, and ends with a report.
  have hsound' := sound_of_document hagain desired.name
  have hdatable : ∀ now, s₁.tick.store.DatableAt now
      (statusKey (Applied.ofStatus? desired.name (some again)).spec.name) := by
    intro now
    have hkey : (Applied.ofStatus? desired.name (some again)).spec.name =
        (attempt.1.settled desired).spec.name := hwritten
    rw [tick_store, hs₁, hkey]
    exact Memory.datableAt_written _ _ _ _
  obtain ⟨written, s₂, hsecond⟩ := reports_of_datable agents deadline hsound' hdatable
  have hrun := exec_reconcileManifest agents deadline name valid s₁
  rw [exec_loadStatus_of_document agents hagain] at hrun
  refine ⟨_, s₂, hrun.trans hsecond, ?_⟩
  rw [attempts_iff agents deadline desired _ hsound', hdoc, hr₁]
  exact not_congr hneeds

/-- A schedule that the agent refused is attempted again. -/
theorem refused_schedule_attempted_again :
    let manifest := WorkflowSpec.ofPipelines "wf1" [("a", ⟨[.manual], [], .empty, []⟩)]
    let pass := (reconcileManifest .zero "workflows/wf1" manifest.encode).exec (answer Fleet.side)
    let s := start (Fleet.ofNames ["agent-a"] [.refused] [some "agent-a"])
    ∃ r₂ s₂, pass (pass s).2 = (some (.ok r₂), s₂) ∧ r₂.Attempts "a" := by
  intro manifest pass s
  have hfirst : (pass s).1 = some (.ok ⟨"wf1", [], [⟨"a", .schedule,
      "Agent error: Agent agent-a rejected the request: mock schedule failure"⟩], true⟩) := by
    decide +kernel
  have valid : WorkflowSpec.ofManifest "wf1" manifest.encode = .ok manifest.resolved := by
    decide +kernel
  have hkept : (pass s).2.document "wf1" ≠ none := by decide +kernel
  have name : workflowName? "workflows/wf1" = some "wf1" := by decide +kernel
  have hproper : s.side.Proper := Fleet.proper_ofNames _ _ (by simp)
  have hblank : s.document "wf1" = none := rfl
  generalize hpass : pass s = out at hfirst hkept ⊢
  obtain ⟨outcome, s₁⟩ := out
  obtain rfl : outcome = _ := hfirst
  obtain ⟨r₂, s₂, hsecond, hagain⟩ := reconcileManifest_attempts_again_iff Fleet.side .zero name
    valid hproper hpass hkept (List.mem_singleton.2 rfl)
  refine ⟨r₂, s₂, hsecond, hagain.2 ?_⟩
  rintro ⟨doc, hdoc, -⟩
  rw [hblank] at hdoc
  cases hdoc

/-- An update that the agent refused is forgotten when the pipeline that made it necessary was placed
in the same pass. -/
theorem refused_update_forgotten :
    let pass := fun manifest : WorkflowSpec =>
      (reconcileManifest .zero "workflows/wf1" manifest.encode).exec (answer Fleet.side)
    let manifest := WorkflowSpec.ofPipelines "wf1"
      [("a", ⟨[.manual], [], .empty, []⟩), ("b", ⟨[.pipeline "a"], [], .empty, []⟩)]
    let s := (pass (.ofPipelines "wf1" [("a", ⟨[.manual], [], .empty, []⟩)])
      (start (Fleet.ofNames ["agent-a"] [.answered, .refused] [some "agent-a", some "agent-a"]))).2
    ∃ r₁ s₁ r₂ s₂, pass manifest s = (some (.ok r₁), s₁) ∧ (∃ f ∈ r₁.failures, f.pipeline = "a") ∧
      pass manifest s₁ = (some (.ok r₂), s₂) ∧ ¬ r₂.Attempts "a" := by
  intro pass manifest s
  have hfirst : (pass manifest s).1 = some (.ok ⟨"wf1", [⟨"b", .schedule⟩], [⟨"a", .update,
      "Agent error: Agent agent-a rejected the request: mock update failure"⟩], true⟩) := by
    decide +kernel
  have hsecond : (pass manifest (pass manifest s).2).1 = some (.ok ⟨"wf1", [], [], false⟩) := by
    decide +kernel
  generalize hpass : pass manifest s = out at hfirst hsecond
  obtain ⟨outcome, s₁⟩ := out
  obtain rfl : outcome = _ := hfirst
  generalize hagain : pass manifest s₁ = out at hsecond
  obtain ⟨outcome, s₂⟩ := out
  obtain rfl : outcome = _ := hsecond
  refine ⟨_, s₁, _, s₂, rfl, ⟨_, List.mem_singleton.2 rfl, rfl⟩, hagain, ?_⟩
  simp [ReconcileReport.Attempts]

end Site

end FleetControl
