import FleetControl.Proofs.Fleet.Basic
import FleetControl.Proofs.Reconcile.Pass
import FleetControl.Proofs.Site.Host

/-!
# A pass without failures is the last one

When everything that a pass attempted has succeeded, its working copy has the pipelines of the
manifest and nothing unconfirmed, so the document that it leaves is that of the manifest. Written
down and read back it is resolved again, which changes nothing, and the next plan is empty: the next
pass reads the document and is done, whoever runs it.

* `WorkflowStatus.Settles` — a document leaves nothing to do for a manifest;
* `Host.settled_of_exec` — a pass without failures leaves such a document, which does not expire;
* `Host.exec_reconcileManifest_of_settled` — a pass that finds one only reads it;
* `Host.converged_pass_is_fixpoint` — so a pass without failures is the last one.
-/

namespace FleetControl

/-- A document leaves nothing to do for a manifest. -/
structure WorkflowStatus.Settles (doc : WorkflowStatus) (desired : WorkflowSpec) : Prop where
  description : doc.spec.description = desired.description
  actions : manifestActions desired (.ofStatus doc) = []

/-- There is nothing to do if what is applied is what is desired and nothing is unconfirmed. -/
theorem manifestActions_eq_nil {desired : WorkflowSpec} {a : Applied} (hspec : a.spec = desired)
    (hnone : ∀ p, a.unconfirmed.get? p = none) : manifestActions desired a = [] := by
  rw [List.eq_nil_iff_forall_not_mem]
  intro planned hplanned
  have hneeded := (mem_manifestActions_iff desired a planned).1 hplanned
  rw [Applied.needs_eq_none_iff.2 ⟨by rw [hspec], fun _ => hnone planned.pipeline⟩] at hneeded
  cases hneeded

/-- The working copy after a pass without failures has the spec of the manifest. -/
theorem Attempt.Outcome.spec_of_converged {desired : WorkflowSpec} {a : Applied} {attempt : Attempt}
    (h : Outcome desired (manifestActions desired a) a attempt) (hall : attempt.failures = [])
    (hname : a.spec.name = desired.name) : (attempt.settled desired).spec = desired := by
  have hpipelines : attempt.state.spec.pipelines = desired.pipelines :=
    KeyMap.ext_get? fun p => h.get?_of_converged hall p
  have hown : attempt.state.spec.name = desired.name := h.frame.1.trans hname
  simp only [Attempt.settled, hpipelines, hown]

/-- **The document after a pass without failures** leaves nothing to do. -/
theorem Attempt.Outcome.settles {desired : WorkflowSpec} (hresolved : desired.resolved = desired)
    {a : Applied} {attempt : Attempt}
    (h : Outcome desired (manifestActions desired a) a attempt) (hall : attempt.failures = [])
    (hname : a.spec.name = desired.name) (hapart : a.Apart) (t : Option Instant) :
    ((attempt.settled desired).toStatus t).Settles desired := by
  have hspec := h.spec_of_converged hall hname
  refine ⟨congrArg WorkflowSpec.description hspec, manifestActions_eq_nil ?_ ?_⟩
  · change (attempt.settled desired).spec.resolved = desired
    rw [hspec, hresolved]
  · intro p
    change ((attempt.settled desired).unconfirmed.filter _).get? p = none
    rw [KeyMap.get?_filter, show (attempt.settled desired).unconfirmed.get? p = none from
      h.unconfirmed_of_converged hall hapart p]
    rfl

namespace Host

variable {τ : Type}

/-! ## The first pass -/

/-- The status document of a workflow is missing, or it is about that workflow and does not
expire. -/
def Own (s : Host τ) (w : String) : Prop :=
  ∀ e, s.store.live? s.tick.now (statusKey w) = some e →
    e.expiresAt = none ∧ ∀ doc, WorkflowStatus.decode? e.data = some doc → doc.name = w

/-- The store has a document that leaves nothing to do for a manifest and does not expire. -/
def Settled (s : Host τ) (desired : WorkflowSpec) : Prop :=
  ∃ e doc, s.store.entry? (statusKey desired.name) = some e ∧ e.Lasting ∧
    WorkflowStatus.decode? e.data = some doc ∧ doc.Settles desired

variable (agents : AgentSide τ) (deadline : Span)

/-- A pass that ended with a report read the document, attempted its actions, and wrote the document
unless nothing had changed. -/
private theorem steps_of_exec {key w : String} {data : Bytes} {desired : WorkflowSpec}
    (name : workflowName? key = some w) (valid : WorkflowSpec.ofManifest w data = .ok desired)
    {s s' : Host τ} {r : ReconcileReport}
    (h : (reconcileManifest deadline key data).exec (answer agents) s = (some (.ok r), s')) :
    ∃ previous s₀, (loadStatus w).exec (answer agents) s = (some (.ok previous), s₀) ∧
      let attempt := manifestAttempt agents deadline desired previous s₀.side
      r.failures = attempt.1.failures ∧
        if attempt.1.quiet desired previous then s'.store = s₀.store
        else (saveStatus (attempt.1.settled desired)).exec (answer agents)
          { s₀ with side := attempt.2 } = (some (.ok ()), s') := by
  unfold reconcileManifest at h
  simp only [name, valid] at h
  obtain ⟨loaded, s₀, hload, hpass⟩ := Program.exec_bind_eq_some h
  cases loaded with
  | error e => cases hpass
  | ok previous =>
      refine ⟨previous, s₀, hload, ?_⟩
      unfold reconcileWorkflow at hpass
      obtain ⟨attempt, s₁, hattempt, hend⟩ := Program.exec_bind_eq_some hpass
      rw [exec_remote agents (Control.Remote.all _ _ _ _ _)] at hattempt
      cases hattempt
      change (if (manifestAttempt agents deadline desired previous s₀.side).1.quiet desired previous
        then _ else _ : Control _).exec _ _ = _ at hend
      split at hend
      · next hquiet =>
        cases hend
        refine ⟨rfl, ?_⟩
        rw [if_pos hquiet]
      · next hquiet =>
        obtain ⟨written, s₂, hsave, hend⟩ := Program.exec_bind_eq_some hend
        cases written with
        | error e => cases hend
        | ok u =>
            cases hend
            refine ⟨rfl, ?_⟩
            rw [if_neg hquiet]
            exact hsave

/-- The working copy that a pass starts from is sound and has the workflow's name, and what was read
stays in the store. -/
theorem start_of_load {s s₀ : Host τ} {w : String} (own : s.Own w)
    {previous : Option WorkflowStatus}
    (h : (loadStatus w).exec (answer agents) s = (some (.ok previous), s₀)) :
    (Applied.ofStatus? w previous).Sound ∧ (Applied.ofStatus? w previous).spec.name = w ∧
      ∀ doc, previous = some doc → ∃ e, s₀.store.entry? (statusKey w) = some e ∧
        e.Lasting ∧ WorkflowStatus.decode? e.data = some doc := by
  cases previous with
  | none => exact ⟨Applied.sound_empty _, rfl, fun doc hdoc => by cases hdoc⟩
  | some doc =>
      obtain ⟨e, hlive, hdoc, hstore⟩ := read_of_exec agents h
      obtain ⟨hexpires, hown⟩ := own e hlive
      obtain ⟨hentry, hstage⟩ := (Simulation.Backend.live?_eq_some_iff _ _ _ _).1 hlive
      refine ⟨Applied.sound_of_decode? hdoc, hown doc hdoc, ?_⟩
      rintro other hother
      obtain rfl := Option.some.inj hother
      rw [hstore]
      exact ⟨e, hentry, ⟨(Entry.stage_eq_live_iff hexpires _ _).1 hstage, hexpires⟩, hdoc⟩

/-- **A pass without failures leaves a document that settles the manifest** and does not expire. -/
theorem settled_of_exec {s s' : Host τ} (proper : agents.Proper s.side) {key w : String}
    (own : s.Own w) {data : Bytes} {desired : WorkflowSpec} (name : workflowName? key = some w)
    (valid : WorkflowSpec.ofManifest w data = .ok desired) {r : ReconcileReport}
    (h : (reconcileManifest deadline key data).exec (answer agents) s = (some (.ok r), s'))
    (hall : r.failures = []) : s'.Settled desired := by
  obtain ⟨raw, rfl, hraw⟩ := WorkflowSpec.ofManifest_ok valid
  have hresolved : desired.resolved = desired := by
    rw [hraw]
    exact raw.resolved_resolved
  have hname : raw.name = desired.name := by
    rw [hraw]
    rfl
  rw [hname] at own
  obtain ⟨previous, s₀, hload, hfailures, hend⟩ := steps_of_exec agents deadline name valid h
  rw [hname] at hload
  rw [hall] at hfailures
  obtain ⟨hsound, hown, hkept⟩ := start_of_load agents own hload
  have hside : agents.Proper s₀.side := by
    have hsame := side_of_loadStatus agents s desired.name
    rw [hload] at hsame
    rw [hsame]
    exact proper
  have houtcome := Site.manifestAttempt_outcome agents deadline desired s₀.side hsound
  split at hend
  · next hquiet =>
    obtain ⟨hactions, hattempt⟩ :=
      Site.manifestAttempt_of_quiet agents deadline hsound hquiet
    simp only [hattempt, Attempt.quiet, Bool.and_eq_true, decide_eq_true_eq] at hquiet
    obtain ⟨doc, rfl⟩ := Option.isSome_iff_exists.1 hquiet.1.1
    obtain ⟨e, hentry, hlasting, hdoc⟩ := hkept doc rfl
    exact ⟨e, doc, by rw [hend]; exact hentry, hlasting, hdoc, hquiet.2, hactions⟩
  · have hdated := Attempt.dated_all agents deadline desired.name desired
      (manifestActions desired (Applied.ofStatus? desired.name previous)) hsound.dated hside
    change (manifestAttempt agents deadline desired previous s₀.side).1.state.Dated at hdated
    generalize manifestAttempt agents deadline desired previous s₀.side = attempt at *
    obtain ⟨now, version, hwritten⟩ := written_of_exec agents hend
    rw [houtcome.spec_of_converged hfailures.symm hown] at hwritten
    have hread := Applied.reread_toStatus (a := attempt.1.settled desired)
      ⟨hdated.pipelines, hdated.unconfirmed⟩ now
    exact ⟨_, _, hwritten, ⟨rfl, rfl⟩, hread,
      houtcome.settles hresolved hfailures.symm hown hsound.apart _⟩

/-! ## The next pass -/

/-- **A pass that finds everything settled** only reads the document. -/
theorem exec_reconcileManifest_of_settled {s : Host τ} {key w : String} {data : Bytes}
    {desired : WorkflowSpec} (settled : s.Settled desired) (name : workflowName? key = some w)
    (valid : WorkflowSpec.ofManifest w data = .ok desired) :
    (reconcileManifest deadline key data).exec (answer agents) s =
      (some (.ok (.empty w)), s.tick) := by
  obtain ⟨raw, rfl, hraw⟩ := WorkflowSpec.ofManifest_ok valid
  have hname : raw.name = desired.name := by
    rw [hraw]
    rfl
  obtain ⟨e, doc, hentry, hlasting, hdoc, hsettles⟩ := settled
  rw [← hname] at hentry
  unfold reconcileManifest
  simp only [name, valid]
  rw [Program.exec_bind, exec_loadStatus_of_lasting agents hentry hlasting hdoc]
  -- The plan is empty, and the description is that of the manifest.
  simp only [reconcileWorkflow, Applied.ofStatus?, hsettles.actions]
  have hdescription : (Applied.ofStatus doc).spec.description = desired.description :=
    hsettles.description
  rw [Program.exec_bind]
  simp only [Attempt.all, Program.exec_pure, hdescription, hname]
  rfl

/-- **A pass without failures is the last one.** Take any store in either backend whose status
document of a workflow is missing, or is about that workflow and does not expire, any valid manifest
and any replies of agents. If a pass over the manifest ends with a report without failures, then
there is nothing left to plan, and the next pass over the same manifest and store, with whatever
controller, agents and clock, attempts nothing, asks no agent for anything and writes nothing. -/
theorem converged_pass_is_fixpoint {s s' : Host τ} (proper : agents.Proper s.side) {key w : String}
    (own : s.Own w) {data : Bytes} {desired : WorkflowSpec} (name : workflowName? key = some w)
    (valid : WorkflowSpec.ofManifest w data = .ok desired) {r : ReconcileReport}
    (pass : (reconcileManifest deadline key data).exec (answer agents) s = (some (.ok r), s'))
    (converged : r.failures = []) :
    s'.Settled desired ∧
      ∀ {σ : Type} (agents' : AgentSide σ) (deadline' : Span) {again : Host σ},
        again.store = s'.store →
          (reconcileManifest deadline' key data).exec (answer agents') again =
            (some (.ok (.empty w)), again.tick) := by
  have settled := settled_of_exec agents deadline proper own name valid pass converged
  refine ⟨settled, fun agents' deadline' again same => ?_⟩
  refine exec_reconcileManifest_of_settled agents' deadline' ?_ name valid
  obtain ⟨e, doc, hentry, hrest⟩ := settled
  exact ⟨e, doc, by rw [same]; exact hentry, hrest⟩

/-- After a restart with other agents and another policy of placement, a table that was brought to a
manifest is left alone. -/
theorem restart_leaves_table_alone :
    let manifest := WorkflowSpec.ofPipelines "wf1" [("a", ⟨[.manual], [], .empty, []⟩)]
    let s : Host Fleet := ⟨⟨⟨0, false⟩, by decide⟩, [], .table (.new defaultGrace),
      Fleet.ofNames ["agent-a"] [] [some "agent-a"]⟩
    ∃ r s', (reconcileManifest .zero "workflows/wf1" manifest.encode).exec (answer Fleet.side) s =
        (some (.ok r), s') ∧ r.failures = [] ∧
      let again : Host Fleet :=
        { s' with side := Fleet.ofNames ["agent-b"] [.lost] [some "agent-b"] }
      (reconcileManifest .zero "workflows/wf1" manifest.encode).exec (answer Fleet.side) again =
        (some (.ok (.empty "wf1")), again.tick) := by
  intro manifest s
  have hpass : ((reconcileManifest .zero "workflows/wf1" manifest.encode).exec (answer Fleet.side)
      s).1 = some (.ok ⟨"wf1", [⟨"a", .schedule⟩], [], true⟩) := by
    decide +kernel
  have valid : WorkflowSpec.ofManifest "wf1" manifest.encode = .ok manifest.resolved := by
    decide +kernel
  have name : workflowName? "workflows/wf1" = some "wf1" := by decide +kernel
  have proper : Fleet.side.Proper s.side := Fleet.proper_ofNames _ _ (by simp)
  have own : s.Own "wf1" := by
    intro e he
    cases he
  generalize hout : (reconcileManifest .zero "workflows/wf1" manifest.encode).exec
    (answer Fleet.side) s = out at hpass ⊢
  obtain ⟨outcome, s'⟩ := out
  obtain rfl : outcome = _ := hpass
  refine ⟨_, s', rfl, rfl, ?_⟩
  exact (converged_pass_is_fixpoint Fleet.side .zero proper own name valid hout rfl).2
    Fleet.side .zero rfl

end Host

end FleetControl
