import FleetControl.Proofs.Fleet.Accounts

/-!
# Calls of the reconciler on a fleet

The reconciler is called with manifests and removals, one call after the other. Each call leaves the
documents of other workflows and what is done about them alone, and writes a document that is true to
the fleet, so every agent that holds a pipeline is on record with it.

* `Site.Accounted.reconcileManifest`, `Site.Accounted.reconcileRemoval` — a call keeps the documents
  true to the fleet;
* `Site.holders_are_on_record` — after any calls the holder of a pipeline is on record, and there is
  at most one; after a removal without failures there is none.
-/

namespace FleetControl

open Fleet (SameAt)

namespace Site

namespace Accounted

variable {s : Site Fleet} (deadline : Span)

/-! ## Actions -/

/-- The actions of a pass over a manifest keep the working copy true to the fleet. -/
theorem manifestAttempt (h : s.Accounted) (desired : WorkflowSpec) :
    let r := FleetControl.manifestAttempt Fleet.side deadline desired (s.document desired.name) s.side
    r.2.Proper ∧ r.1.state.Dated ∧ r.2.Faithful desired.name r.1.state ∧
      (∀ w p, w ≠ desired.name → SameAt s.side r.2 w p) ∧
      (s.side.fates = [] → r.2.fates = []) := by
  have hsound := h.sound desired.name
  obtain ⟨hfaithful, hothers⟩ := (h.faithful desired.name).all h.proper deadline desired
    (nodup_manifestActions desired hsound.apart)
    fun planned hplanned => (mem_manifestActions_iff desired _ planned).1 hplanned
  exact ⟨Fleet.side.run_proper _ h.proper,
    Attempt.dated_all Fleet.side deadline _ _ _ hsound.dated h.proper, hfaithful, hothers,
    Fleet.fates_run _⟩

/-- The actions of a removal keep the working copy true to the fleet. -/
theorem removalAttempt (h : s.Accounted) {w : String} {doc : WorkflowStatus}
    (hdoc : s.document w = some doc) :
    let r := FleetControl.removalAttempt Fleet.side deadline w doc s.side
    r.2.Proper ∧ r.1.state.Dated ∧ r.2.Faithful w r.1.state ∧
      (∀ w' p, w' ≠ w → SameAt s.side r.2 w' p) ∧ (s.side.fates = [] → r.2.fates = []) := by
  have hsound := h.sound w
  have hfaithful := h.faithful w
  rw [hdoc] at hsound hfaithful
  obtain ⟨hfaithful, hothers⟩ := hfaithful.all h.proper deadline (.empty w)
    (nodup_removalActions hsound.apart)
    fun planned hplanned => needs_of_mem_removalActions hplanned w
  exact ⟨Fleet.side.run_proper _ h.proper,
    Attempt.dated_all Fleet.side deadline _ _ _ hsound.dated h.proper, hfaithful, hothers,
    Fleet.fates_run _⟩

/-- Nothing is held any more after a removal without failures. -/
theorem not_holds_of_removed (h : s.Accounted) {w : String} {doc : WorkflowStatus}
    (hdoc : s.document w = some doc)
    (hall : (FleetControl.removalAttempt Fleet.side deadline w doc s.side).1.failures = [])
    (name p : String) :
    ¬ (FleetControl.removalAttempt Fleet.side deadline w doc s.side).2.Holds name w p := by
  have hsound := h.sound w
  rw [hdoc] at hsound
  have houtcome := removalAttempt_outcome Fleet.side deadline w doc s.side hsound
  obtain ⟨-, -, hfaithful, -, -⟩ := h.removalAttempt deadline hdoc
  generalize FleetControl.removalAttempt Fleet.side deadline w doc s.side = r at *
  have hnothing := houtcome.cleared hall p
  obtain ⟨named, ht⟩ := hfaithful p
  intro hholds
  have hnamed := ht.holders name hholds
  obtain ⟨-, ⟨-, hnobody⟩ | ⟨u, other, hu, -⟩⟩ := ht.tells.of_none hnothing.1
  · rw [hnobody] at hnamed
    cases hnamed
  · rw [hnothing.2] at hu
    cases hu

/-! ## Passes -/

/-- A pass over a manifest keeps the documents true to the fleet, and it ends with a report and
leaves a document. -/
theorem reconcileWorkflow (h : s.Accounted) (desired : WorkflowSpec) {now : Instant}
    (hdatable : s.store.DatableAt now (statusKey desired.name)) :
    ∃ report s', (FleetControl.reconcileWorkflow deadline desired (s.document desired.name)).exec
        (answer Fleet.side) s = (some (.ok report), s') ∧
      Follows desired.name s s' ∧ s'.document desired.name ≠ none := by
  obtain ⟨hproper, hdated, hfaithful, hothers, hcalm⟩ := h.manifestAttempt deadline desired
  have hsound := h.sound desired.name
  have hname := (manifestAttempt_outcome Fleet.side deadline desired s.side hsound).frame.1
  rw [h.name] at hname
  rw [exec_reconcileWorkflow]
  simp only
  split
  · next hquiet =>
    have hsome : s.document desired.name ≠ none := by
      simp only [Attempt.quiet, Bool.and_eq_true] at hquiet
      exact Option.isSome_iff_ne_none.1 hquiet.1.1
    rw [(manifestAttempt_of_quiet Fleet.side deadline hsound hquiet).2]
    exact ⟨_, _, rfl, h.follows _, hsome⟩
  · generalize FleetControl.manifestAttempt Fleet.side deadline desired (s.document desired.name)
      s.side = r at hproper hdated hfaithful hothers hcalm hname ⊢
    have hsettled : (r.1.settled desired).spec.name = desired.name := hname
    have hfree := (h.lasting desired.name).datableAt hdatable
      ({ s with side := r.2 } : Site Fleet).tick.tick.now
    rw [← hsettled] at hfree
    rw [exec_saveStatus Fleet.side hfree]
    obtain ⟨hfollows, t, hsaved⟩ := h.saved hproper (a := r.1.settled desired)
      ⟨hdated.pipelines, hdated.unconfirmed⟩ hsettled hfaithful hothers hcalm
    exact ⟨_, _, rfl, hfollows, by rw [hsaved]; simp⟩

/-- **A call with a manifest** keeps the documents true to the fleet, whatever the manifest. If the
manifest is valid and the call does not break off, it ends with a report and leaves a document. -/
theorem reconcileManifest (h : s.Accounted) {key w : String} (name : workflowName? key = some w)
    (data : Bytes) :
    let r := (FleetControl.reconcileManifest deadline key data).exec (answer Fleet.side) s
    Follows w s r.2 ∧ (r.1 = none ∨ (∃ e, r.1 = some (.error (.invalid e)) ∧ r.2 = s) ∨
      ∃ report, r.1 = some (.ok report) ∧ r.2.document w ≠ none) := by
  cases valid : WorkflowSpec.ofManifest w data with
  | error e =>
      simp only [FleetControl.reconcileManifest, name, valid]
      exact ⟨h.follows w, .inr (.inl ⟨e, rfl, rfl⟩)⟩
  | ok desired =>
      obtain rfl := WorkflowSpec.name_of_manifest valid
      rw [exec_reconcileManifest Fleet.side deadline name valid]
      obtain ⟨s₀, hread, hload | ⟨hload, hdatable⟩⟩ := h.loads desired.name
      · rw [hload]
        exact ⟨hread, .inl rfl⟩
      · obtain ⟨report, s', hexec, hfollows, hsome⟩ :=
          hread.accounted.reconcileWorkflow deadline desired hdatable
        simp only [hload, hexec]
        exact ⟨hread.trans hfollows, .inr (.inr ⟨report, rfl, hsome⟩)⟩

/-- The document is deleted after a removal without failures, and written after any other. -/
private theorem exec_conclusion (h : s.Accounted) {w : String} {doc : WorkflowStatus}
    (hdoc : s.document w = some doc) {now : Instant}
    (hdatable : s.store.DatableAt now (statusKey w)) :
    let r := FleetControl.removalAttempt Fleet.side deadline w doc s.side
    ∃ s', (if r.1.failures.isEmpty then deleteStatus w else saveStatus r.1.state).exec
        (answer Fleet.side) { s with side := r.2 } = (some (.ok ()), s') ∧
      Follows w s s' ∧ (r.1.failures = [] → s'.document w = none) := by
  obtain ⟨hproper, hdated, hfaithful, hothers, hcalm⟩ := h.removalAttempt deadline hdoc
  have hsound := h.sound w
  rw [hdoc] at hsound
  have hname : (FleetControl.removalAttempt Fleet.side deadline w doc s.side).1.state.spec.name =
      w := by
    have hframe := (removalAttempt_outcome Fleet.side deadline w doc s.side hsound).frame.1
    exact hframe.trans (h.own w doc hdoc)
  have hnone := h.not_holds_of_removed deadline hdoc
  generalize FleetControl.removalAttempt Fleet.side deadline w doc s.side = r at *
  simp only
  split
  · next hempty =>
    obtain ⟨e, hlive, -⟩ := Option.bind_eq_some_iff.1 hdoc
    have hentry := (((h.lasting w).live?_eq_some_iff _ _).1 hlive).1
    have hstill : ({ s with side := r.2 } : Site Fleet).store.live?
        ({ s with side := r.2 } : Site Fleet).tick.now (statusKey w) = some e := by
      rw [← hlive]
      exact (h.lasting w).live?_eq _ _
    obtain ⟨hfollows, hgone⟩ := h.removed hproper hentry
      (hnone (List.isEmpty_iff.1 hempty)) hothers hcalm
    exact ⟨_, exec_deleteStatus_of_live Fleet.side hstill, hfollows, fun _ => hgone⟩
  · next hfailed =>
    have hfree := (h.lasting w).datableAt hdatable
      ({ s with side := r.2 } : Site Fleet).tick.tick.now
    rw [← hname] at hfree
    obtain ⟨hfollows, -⟩ := h.saved hproper hdated hname hfaithful hothers hcalm
    exact ⟨_, exec_saveStatus Fleet.side hfree, hfollows,
      fun hall => absurd (List.isEmpty_iff.2 hall) hfailed⟩

/-- **A removal** keeps the documents true to the fleet, and if nothing fails there is no document of
the workflow afterwards. Unless it breaks off it ends with a report, and its failures are those of its
actions. -/
theorem removeWorkflow (h : s.Accounted) (w : String) :
    let r := (FleetControl.removeWorkflow deadline w).exec (answer Fleet.side) s
    Follows w s r.2 ∧ (r.1 = none ∨ ∃ report, r.1 = some (.ok report) ∧
      (report.failures = [] → r.2.document w = none) ∧
      (report.failures = [] ∨ ∃ s₀ doc, Follows w s s₀ ∧ s₀.document w = some doc ∧
        report.failures = (FleetControl.removalAttempt Fleet.side deadline w doc s₀.side).1.failures)) := by
  rw [exec_removeWorkflow]
  obtain ⟨s₀, hread, hload | ⟨hload, hdatable⟩⟩ := h.loads w
  · rw [hload]
    exact ⟨hread, .inl rfl⟩
  · cases hdoc : s₀.document w with
    | none =>
        rw [hload, hdoc]
        exact ⟨hread, .inr ⟨_, rfl, fun _ => hdoc, .inl rfl⟩⟩
    | some doc =>
        obtain ⟨s', hexec, hfollows, hgone⟩ :=
          hread.accounted.exec_conclusion deadline hdoc hdatable
        simp only [hload, hdoc, hexec]
        exact ⟨hread.trans hfollows, .inr ⟨_, rfl, hgone, .inr ⟨s₀, doc, hread, hdoc, rfl⟩⟩⟩

end Accounted

/-! ## Sequences of calls -/

/-- Nothing is held and there are no documents. -/
structure Fresh (s : Site Fleet) : Prop where
  /-- Agents are registered under their own names. -/
  honest : s.side.Honest
  idle : ∀ id a, s.side.agents.get? id = some a → ∀ w p, a.find? w p = none
  blank : ∀ w, s.store.entries.get? (statusKey w) = none

/-- Idle agents at the start. -/
theorem fresh_start {names : List String} (h : ∀ name ∈ names, name ≠ "") (fates : List Fate)
    (choices : List (Option String)) : (Site.start (Fleet.ofNames names fates choices)).Fresh :=
  ⟨Fleet.honest_ofNames fates choices h, fun _ _ ha => Fleet.idle_ofNames fates choices ha,
    fun _ => rfl⟩

theorem Fresh.accounted {s : Site Fleet} (h : s.Fresh) : s.Accounted := by
  have hnothing : ∀ w, s.document w = none := by
    intro w
    simp [document, Memory.live?, h.blank w]
  refine ⟨⟨h.honest, ?_⟩, ?_, ?_, ?_, ?_⟩
  · intro id a ha w p held hheld
    rw [h.idle id a ha w p] at hheld
    cases hheld
  · intro w e he
    rw [h.blank w] at he
    cases he
  · intro w t e he
    simp [Memory.live?, h.blank w] at he
  · intro w doc hdoc
    rw [hnothing] at hdoc
    cases hdoc
  · intro w
    rw [hnothing]
    apply Fleet.faithful_empty
    intro name p hholds
    simp only [Fleet.Holds, Fleet.held, Fleet.agent?] at hholds
    cases hr : s.side.directory.get? name with
    | none => simp [hr] at hholds
    | some r =>
        cases ha : s.side.agents.get? r.agent with
        | none => simp [hr, ha] at hholds
        | some a => simp [hr, ha, h.idle r.agent a ha] at hholds

end Site

/-- A call of the reconciler. -/
inductive Call where
  | manifest (key : String) (data : Bytes)
  | removal (key : String)

/-- What a call does. -/
def Call.program (deadline : Span) : Call → Control (Except ControlError ReconcileReport)
  | manifest key data => reconcileManifest deadline key data
  | removal key => reconcileRemoval deadline key

namespace Site

/-- The site after calls, one after the other. -/
def after (deadline : Span) (s : Site Fleet) (calls : List Call) : Site Fleet :=
  calls.foldl (fun s call => ((call.program deadline).exec (answer Fleet.side) s).2) s

namespace Accounted

variable {s : Site Fleet}

/-- **Any call keeps the documents true to the fleet.** -/
theorem call (h : s.Accounted) (deadline : Span) (call : Call) :
    ((call.program deadline).exec (answer Fleet.side) s).2.Accounted := by
  cases call with
  | manifest key data =>
      cases name : workflowName? key with
      | none =>
          simp only [Call.program, FleetControl.reconcileManifest, name]
          exact h
      | some w => exact (h.reconcileManifest deadline name data).1.accounted
  | removal key =>
      cases name : workflowName? key with
      | none =>
          simp only [Call.program, FleetControl.reconcileRemoval, name]
          exact h
      | some w =>
          simp only [Call.program, FleetControl.reconcileRemoval, name]
          exact (h.removeWorkflow deadline w).1.accounted

/-- So do any calls. -/
theorem after (h : s.Accounted) (deadline : Span) (calls : List Call) :
    (s.after deadline calls).Accounted := by
  induction calls generalizing s with
  | nil => exact h
  | cons call rest ih => exact ih (h.call deadline call)

end Accounted

end Site

/-- A document names an agent as the executor of a pipeline: of one that was applied last, or of an
unconfirmed one. -/
def WorkflowStatus.Names (doc : WorkflowStatus) (name p : String) : Prop :=
  (doc.spec.pipelines.contains p = true ∧
      ∃ status, doc.pipelines.get? p = some status ∧ status.executor = some name) ∨
    ∃ u, doc.unconfirmed.get? p = some u ∧ u.status.executor = some name

/-- A document names the agent that its working copy tells. -/
theorem WorkflowStatus.names_of_tells {doc : WorkflowStatus} {name p : String}
    (h : ((Applied.ofStatus doc).slot p).Tells (some name)) : doc.Names name p := by
  cases hspec : doc.spec.resolved.pipelines.get? p with
  | some d =>
      obtain ⟨status, other, hstatus, hexecutor, hother⟩ := h.of_some hspec
      obtain rfl := Option.some.inj hother
      refine .inl ⟨?_, status, hstatus, hexecutor⟩
      rw [← WorkflowSpec.contains_resolved]
      exact (KeyMap.contains_iff _ _).2 ⟨d, hspec⟩
  | none =>
      obtain ⟨-, ⟨-, hnobody⟩ | ⟨u, other, hu, hexecutor, hother⟩⟩ := h.of_none hspec
      · cases hnobody
      · obtain rfl := Option.some.inj hother
        exact .inr ⟨u, hu, hexecutor⟩

namespace Site

/-- A holder is on record where the documents are true to the fleet. -/
theorem Accounted.names {s : Site Fleet} (h : s.Accounted) {name w p : String}
    (hholds : s.side.Holds name w p) :
    ∃ doc, s.document w = some doc ∧ doc.Names name p := by
  cases hdoc : s.document w with
  | none => exact absurd hholds (h.not_holds_of_no_document hdoc name p)
  | some doc =>
      obtain ⟨named, ht⟩ := h.faithful w p
      rw [hdoc] at ht
      obtain rfl := ht.holders name hholds
      exact ⟨doc, rfl, WorkflowStatus.names_of_tells ht.tells⟩

/-- **Holders are on record.** After any calls of the reconciler, with any policy of placement and any
pattern of refusals and delays, an agent that holds a pipeline is the executor on record in the live
document of the workflow; so at most one agent holds it. After a removal without failures no agent
holds anything of the workflow. -/
theorem holders_are_on_record {s : Site Fleet} (fresh : s.Fresh) (deadline : Span)
    (calls : List Call) :
    let s' := s.after deadline calls
    (∀ name w p, s'.side.Holds name w p → ∃ doc, s'.document w = some doc ∧ doc.Names name p) ∧
      (∀ name other w p, s'.side.Holds name w p → s'.side.Holds other w p → name = other) ∧
      (∀ key w report s'', workflowName? key = some w →
        (reconcileRemoval deadline key).exec (answer Fleet.side) s' = (some (.ok report), s'') →
          report.failures = [] → ∀ name p, ¬ s''.side.Holds name w p) := by
  have h := fresh.accounted.after deadline calls
  refine ⟨fun name w p => h.names, ?_, ?_⟩
  · intro name other w p hname hother
    obtain ⟨named, ht⟩ := h.faithful w p
    have hsame := (ht.holders name hname).symm.trans (ht.holders other hother)
    exact Option.some.inj hsame
  · intro key w report s'' name hrun hall
    simp only [reconcileRemoval, name] at hrun
    obtain ⟨hfollows, hbroke | ⟨other, hreport, hgone, -⟩⟩ := h.removeWorkflow deadline w
    · rw [hrun] at hbroke
      cases hbroke
    · rw [hrun] at hfollows hreport hgone
      obtain rfl := Except.ok.inj (Option.some.inj hreport)
      exact hfollows.accounted.not_holds_of_no_document (hgone hall)

/-- The agent of a schedule that was carried out but not heard of is on record. -/
theorem unheard_schedule_on_record :
    let manifest := WorkflowSpec.ofPipelines "wf1" [("a", ⟨[.manual], [], .empty, []⟩)]
    let s := (start (Fleet.ofNames ["agent-a", "agent-b"] [.unheard] [some "agent-b"])).after .zero
      [.manifest "workflows/wf1" manifest.encode]
    s.side.Holds "agent-b" "wf1" "a" ∧ ∃ doc, s.document "wf1" = some doc ∧
      doc.Names "agent-b" "a" := by
  intro manifest s
  have hholds : s.side.Holds "agent-b" "wf1" "a" := by
    unfold Fleet.Holds
    decide +kernel
  have fresh : (start (Fleet.ofNames ["agent-a", "agent-b"] [.unheard] [some "agent-b"])).Fresh :=
    fresh_start (by simp) _ _
  exact ⟨hholds, (holders_are_on_record fresh .zero _).1 "agent-b" "wf1" "a" hholds⟩

end Site

end FleetControl
