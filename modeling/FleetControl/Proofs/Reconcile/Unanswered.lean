import FleetControl.Proofs.Fleet.Calls
import FleetControl.Proofs.Reconcile.Courses

/-!
# Schedules that get no answer

An agent that was sent a pipeline and did not answer in time may run it, so the status is made to name
it. What a document keeps of this depends on the planned action. A planned schedule that fails and
leaves an executor behind makes the pipeline unconfirmed, with that executor. But an update of a
pipeline that has no executor on record sends a schedule call too, and when that fails, everything
that is known about the pipeline stays as it was: the document names nobody.

* `Applied.names_of_timed_out` — what is known about a pipeline after such a schedule call;
* `Host.named_iff_unapplied` — whom the document names after such a call;
* `Host.unanswered_update_names_nobody` — an agent that may run a pipeline and is forgotten.
-/

namespace FleetControl

open Control (Sent)
open Simulation (Backend)

/-! ## What is known about the pipeline -/

namespace Slot

/-- What is known about a pipeline names an agent as its executor, of the pipeline that was applied
last or of the unconfirmed one. -/
def Names (k : Slot) (name : String) : Prop :=
  (k.spec.isSome = true ∧ ∃ status, k.status = some status ∧ status.executor = some name) ∨
    ∃ u, k.unconfirmed = some u ∧ u.status.executor = some name

/-- At most one executor is named: that of the recorded status, or else the one that was attempted. -/
theorem Tidy.names_iff {k : Slot} (h : k.Tidy) (name : String) :
    k.Names name ↔
      ((k.status <|> k.unconfirmed.map (·.status)).getD .empty).executor = some name := by
  cases hstatus : k.status with
  | some status =>
      have hspec := h.within (by rw [hstatus]; rfl)
      have hnone : k.unconfirmed = none := by
        by_contra hsome
        obtain ⟨u, hu⟩ := Option.ne_none_iff_exists'.1 hsome
        rw [(h.apart u hu).1] at hspec
        cases hspec
      simp [Names, hspec, hstatus, hnone]
  | none =>
      cases hunconfirmed : k.unconfirmed with
      | none => simp [Names, hstatus, hunconfirmed, PipelineStatus.empty]
      | some u => simp [Names, hstatus, hunconfirmed]

/-- A pipeline without an executor on record that is applied names nobody. -/
theorem Tidy.not_names {k : Slot} (h : k.Tidy) (applied : k.spec ≠ none)
    (executor : (k.status.getD .empty).executor = none) (name : String) : ¬ k.Names name := by
  rintro (⟨-, status, hstatus, hname⟩ | ⟨u, hu, -⟩)
  · rw [hstatus, Option.getD_some, hname] at executor
    cases executor
  · exact applied (h.apart u hu).1

end Slot

/-- A document names whom it knows to be named. -/
theorem WorkflowStatus.names_iff_slot (doc : WorkflowStatus) (name p : String) :
    doc.Names name p ↔ (doc.slot p).Names name := Iff.rfl

/-- **What is known about a pipeline after a schedule call that timed out**: a planned schedule leaves
the agent that was called, an update leaves nobody. -/
theorem Applied.names_of_timed_out {start : Applied} {desired : WorkflowSpec} {t : Trial}
    (tidy : (start.slot t.pipeline).Tidy)
    (needed : start.needs desired t.pipeline = some t.planned.action)
    (places : Scheduler.Places t.planned.action (start.statusFor t.planned)) {e : AgentError}
    {agent : String}
    (result : t.result = (.error e, (start.statusFor t.planned).attempted agent)) (name : String) :
    ((start.slot t.pipeline).fold t).Names name ↔
      name = agent ∧ start.spec.pipelines.get? t.pipeline = none := by
  obtain ⟨⟨p, action⟩, spec, outcome⟩ := t
  simp only at result
  subst result
  cases hneeded : Applied.needed needed with
  | schedule _ unapplied =>
      have hunapplied : (start.slot p).spec = none := unapplied
      simp [Slot.fold, Slot.Names, PipelineStatus.attempted, hunapplied, unapplied, eq_comm]
  | @update _ old _ applied =>
      -- The trial failed and was no schedule, so nothing changes.
      refine iff_of_false ?_ fun hnone => Option.some_ne_none old (applied.symm.trans hnone.2)
      obtain ⟨-, executor⟩ := places.resolve_left PipelineAction.noConfusion
      have happlied : (start.slot p).spec = some old := applied
      exact tidy.not_names (happlied ▸ Option.some_ne_none old) executor name
  | remove => rcases places with ⟨⟨⟩⟩ | ⟨⟨⟩, -⟩

/-! ## What the document tells -/

namespace Host

variable {τ : Type} (agents : AgentSide τ) (deadline : Span) {s : Host τ} {w : String}

/-- **An unanswered schedule call is remembered exactly if its pipeline was not applied.** Take any
store in either backend whose status document of a workflow is missing or can be read, any valid
manifest and any replies of agents, and a schedule call about a pipeline that was sent to an agent
and timed out. A pass that does not break off writes a document, and that names the agent, and nobody
else, as the executor of the pipeline if the spec that was applied last does not have the pipeline. If
it has, the document names nobody. -/
theorem named_iff_unapplied (proper : agents.Proper s.side) (readable : s.Readable w) {key : String}
    {data : Bytes} {desired : WorkflowSpec} (name : workflowName? key = some w)
    (valid : WorkflowSpec.ofManifest w data = .ok desired) {agent : String}
    {request : PipelineRequest} {reply : Option (Except AgentError PipelineReport)}
    (sent : Sent ((reconcileManifest deadline key data).exchanges (answer agents) s) agent .schedule
      request reply) (timedOut : Control.TimedOut reply) :
    ∃ outcome s', (reconcileManifest deadline key data).exec (answer agents) s = (outcome, s') ∧
      ((outcome = none ∧ ∃ v, (v = w ∨ v = (s.start w).spec.name) ∧
          ¬ ∀ now, s.store.DatableAt now (statusKey v)) ∨
        ∃ r doc, outcome = some (.ok r) ∧ r.statusWritten = true ∧
          s'.Keeps (s.start w).spec.name doc ∧ ∀ executor, doc.Names executor request.pipeline ↔
            executor = agent ∧ (s.start w).spec.pipelines.get? request.pipeline = none) := by
  obtain ⟨t, ht, log, hcourse, hown⟩ :=
    trial_of_sent_manifest agents deadline readable name valid sent
  obtain ⟨sound, tidy⟩ := s.sound_start w
  have hplans := Applied.plans_manifest sound.apart desired
  have htried := hplans.tried agents.answer deadline w s.side
  have hplanned := Applied.Plans.mem_plan htried ht
  obtain ⟨outcome, s', hexec, hpass⟩ :=
    readable_folds agents deadline proper readable name valid
  refine ⟨outcome, s', hexec, hpass.imp_right ?_⟩
  rintro ⟨r, rfl, -, -, hdocument⟩
  -- Something was planned, so a document is written.
  rw [if_neg fun ⟨_, hnone, _⟩ => List.ne_nil_of_mem hplanned hnone] at hdocument
  obtain ⟨hwritten, doc, hkeeps, hfolds⟩ := hdocument
  refine ⟨r, doc, rfl, hwritten, hkeeps, fun executor => ?_⟩
  obtain ⟨rfl, ⟨-, places, hresult⟩ | ⟨haction, hact, -⟩⟩ := hcourse.of_sent hown
  · obtain ⟨e, hplaced⟩ := Scheduler.placed_of_timed_out timedOut ((s.start w).statusFor t.planned)
      agent deadline
    change doc.Names executor t.pipeline ↔ _
    rw [WorkflowStatus.names_iff_slot, hfolds.own t ht]
    exact Applied.names_of_timed_out (tidy _) (hplans.needed _ hplanned) places
      (hresult.trans hplaced) executor
  · exact absurd haction.symm hact

/-- The agent of a new pipeline does not answer, and the document names it. -/
theorem unanswered_schedule_names_agent :
    let manifest := WorkflowSpec.ofPipelines "wf1" [("a", ⟨[.manual], [], .empty, []⟩)]
    let s : Host Fleet := ⟨⟨⟨0, false⟩, by decide⟩, [], .table (.new defaultGrace),
      Fleet.ofNames ["agent-a"] [.lost] [some "agent-a"]⟩
    ∃ r s' doc, (reconcileManifest .zero "workflows/wf1" manifest.encode).exec (answer Fleet.side) s =
        (some (.ok r), s') ∧ s'.Keeps "wf1" doc ∧ doc.Names "agent-a" "a" := by
  intro manifest s
  have hpass : ((reconcileManifest .zero "workflows/wf1" manifest.encode).exec (answer Fleet.side)
      s).1.isSome = true := by
    decide +kernel
  have valid : WorkflowSpec.ofManifest "wf1" manifest.encode = .ok manifest.resolved := by
    decide +kernel
  have name : workflowName? "workflows/wf1" = some "wf1" := by decide +kernel
  have proper : Fleet.side.Proper s.side := Fleet.proper_ofNames _ _ (by simp)
  have readable : s.Readable "wf1" := by
    intro e he
    cases he
  have sent : Sent ((reconcileManifest .zero "workflows/wf1" manifest.encode).exchanges
      (answer Fleet.side) s) "agent-a" .schedule
        (Scheduler.request "wf1" "a" ⟨[.manual], [], .empty, []⟩) none := by
    decide +kernel
  obtain ⟨outcome, s', hexec, hnamed⟩ :=
    named_iff_unapplied Fleet.side .zero proper readable name valid sent (.inl rfl)
  rw [hexec] at hpass
  rcases hnamed with ⟨rfl, -⟩ | ⟨r, doc, rfl, -, hkeeps, hnames⟩
  · cases hpass
  · exact ⟨r, s', doc, hexec, hkeeps, (hnames "agent-a").2 ⟨rfl, rfl⟩⟩

/-- **An agent that may run a pipeline and is forgotten**: the document has the pipeline, but names no
executor of it. The manifest changes the pipeline, so an update is planned, which sends a schedule
call. The agent does not answer, and the document that is written names nobody. -/
theorem unanswered_update_names_nobody :
    let task : PipelineSpec := ⟨[.manual], [], .empty, []⟩
    let manifest := WorkflowSpec.ofPipelines "wf1" [("a", task)]
    let before := WorkflowStatus.ofParts (.ofPipelines "wf1" [("a", .empty)]) .empty .empty none
    let now : Moment := ⟨⟨0, false⟩, by decide⟩
    let s : Host Fleet := ⟨now, [],
      ((Backend.table (.new defaultGrace)).apply now (.set (statusKey "wf1") before.encode)).2,
      Fleet.ofNames ["agent-a"] [.lost] [some "agent-a"]⟩
    ∃ r s' doc, (reconcileManifest .zero "workflows/wf1" manifest.encode).exec (answer Fleet.side) s =
        (some (.ok r), s') ∧ s.document "wf1" = some before ∧
      Sent ((reconcileManifest .zero "workflows/wf1" manifest.encode).exchanges (answer Fleet.side) s)
        "agent-a" .schedule (Scheduler.request "wf1" "a" task) none ∧
      r.statusWritten = true ∧ s'.document "wf1" = some doc ∧ ∀ name, ¬ doc.Names name "a" := by
  intro task manifest before now s
  have hread : s.document "wf1" = some before := by decide +kernel
  have sent : Sent ((reconcileManifest .zero "workflows/wf1" manifest.encode).exchanges
      (answer Fleet.side) s) "agent-a" .schedule (Scheduler.request "wf1" "a" task) none := by
    decide +kernel
  have hpass : ((reconcileManifest .zero "workflows/wf1" manifest.encode).exec (answer Fleet.side)
      s).1.map (fun outcome => outcome.map (·.statusWritten)) = some (.ok true) := by
    decide +kernel
  have hafter : ((((reconcileManifest .zero "workflows/wf1" manifest.encode).exec (answer Fleet.side)
      s).2.document "wf1").map fun doc => (doc.pipelines.get? "a", doc.unconfirmed.get? "a")) =
        some (none, none) := by
    decide +kernel
  generalize (reconcileManifest .zero "workflows/wf1" manifest.encode).exec (answer Fleet.side) s =
    run at hpass hafter
  obtain ⟨reply, s'⟩ := run
  obtain ⟨doc, hdoc, hnone⟩ := Option.map_eq_some_iff.1 hafter
  obtain ⟨hstatus, hunconfirmed⟩ := Prod.mk.inj hnone
  obtain ⟨outcome, rfl, hwritten⟩ := Option.map_eq_some_iff.1 hpass
  cases outcome with
  | error e => cases hwritten
  | ok r =>
      refine ⟨r, s', doc, rfl, hread, sent, Except.ok.inj hwritten, hdoc, ?_⟩
      rintro name (⟨-, status, hsome, -⟩ | ⟨u, hsome, -⟩)
      · rw [hstatus] at hsome
        cases hsome
      · rw [hunconfirmed] at hsome
        cases hsome

end Host

end FleetControl
