import FleetControl.Proofs.Reconcile.Attempt
import FleetControl.Proofs.Site.Status

/-!
# Passes over a workflow

A pass reads the status document, carries out its actions and writes the document back. Between the
reading and the writing it only talks to agents, so the outcome of a pass is that of its actions, and
the document that it leaves behind is the one that they lead to.

What a working copy holds was either read from a document or reported by an agent, so its instants
are well formed, and the document that is written reads back.

* `Applied.Sound` — the conditions on a working copy that was read;
* `Applied.reread_toStatus` — a working copy reads back from its document;
* `Site.exec_reconcileManifest`, `Site.exec_reconcileWorkflow` — a pass over a manifest;
* `Site.exec_removeWorkflow` — a removal.
-/

namespace FleetControl

/-! ## Working copies with well-formed instants -/

namespace Applied

/-- Every instant in the working copy is well formed. -/
structure Dated (a : Applied) : Prop where
  pipelines : ∀ p status, a.pipelines.get? p = some status → status.Dated
  unconfirmed : ∀ p u, a.unconfirmed.get? p = some u → u.status.Dated

/-- The conditions on a working copy that was read: nothing is both applied and unconfirmed, and what
is unconfirmed names an executor. -/
structure Sound (a : Applied) : Prop where
  apart : a.Apart
  executor : ∀ p u, a.unconfirmed.get? p = some u → u.status.executor.isSome = true
  dated : a.Dated

theorem sound_empty (w : String) : (empty w).Sound := by
  refine ⟨?_, ?_, ?_, ?_⟩
  · intro p hp
    simp [empty, KeyMap.contains] at hp
  · intro p u hp
    simp [empty] at hp
  · intro p status hp
    simp [empty] at hp
  · intro p u hp
    simp [empty] at hp

/-- The working copy of a document that was built with its conditions is sound. -/
theorem sound_ofParts {spec : WorkflowSpec} {pipelines : KeyMap PipelineStatus}
    {unconfirmed : KeyMap UnconfirmedPipeline} {updatedAt : Option Instant}
    (h : (WorkflowStatus.ofParts spec pipelines unconfirmed updatedAt).Dated) :
    (ofStatus (.ofParts spec pipelines unconfirmed updatedAt)).Sound := by
  refine ⟨?_, ?_, ⟨h.pipelines, h.unconfirmed⟩⟩
  · intro p hp
    obtain ⟨u, hu⟩ := (KeyMap.contains_iff _ p).1 hp
    simp only [ofStatus, WorkflowStatus.ofParts, KeyMap.get?_filter] at hu
    have hkeep := (Option.filter_eq_some_iff.1 hu).2
    simp only [Bool.and_eq_true, Bool.not_eq_true'] at hkeep
    simp only [ofStatus, WorkflowStatus.ofParts, WorkflowSpec.contains_resolved]
    exact hkeep.1
  · intro p u hu
    simp only [ofStatus, WorkflowStatus.ofParts, KeyMap.get?_filter] at hu
    have hkeep := (Option.filter_eq_some_iff.1 hu).2
    simp only [Bool.and_eq_true] at hkeep
    exact hkeep.2

/-- The working copy of a document that was read is sound. -/
theorem sound_of_decode? {bytes : Bytes} {doc : WorkflowStatus}
    (h : WorkflowStatus.decode? bytes = some doc) : (ofStatus doc).Sound := by
  have hdated := WorkflowStatus.dated_of_decode? h
  obtain ⟨raw, -, rfl⟩ := Option.map_eq_some_iff.1 h
  exact sound_ofParts hdated

/-- **A working copy reads back from its document**, with the statuses and the unconfirmed pipelines
that belong to its spec. -/
theorem reread_toStatus {a : Applied} (h : a.Dated) (now : Moment) :
    WorkflowStatus.decode? (a.toStatus (some now.val)).encode = some (a.toStatus (some now.val)) := by
  have hdated : (a.toStatus (some now.val)).Dated := by
    refine WorkflowStatus.dated_ofParts h.pipelines h.unconfirmed ?_
    intro t ht
    obtain rfl := Option.some.inj ht
    exact now.property
  rw [WorkflowStatus.decode?_encode hdated]
  exact congrArg some (WorkflowStatus.ofParts_ofParts _ _ _ _)

end Applied

/-! ## Reports hold instants -/

section Reports

variable {τ : Type} (agents : AgentSide τ)

/-- The status after a call is dated if the one before it was. -/
theorem PipelineStatus.Dated.overlay {x : τ} (hx : agents.Proper x) {status : PipelineStatus}
    (hstatus : status.Dated) {connection : Connection} {deadline : Span} {action : PipelineAction}
    {request : PipelineRequest} {agent : String} {report : PipelineReport}
    (h : Scheduler.answered agent deadline
      (agents.answer (.call connection deadline action request) x).1 = .ok report) :
    (status.overlay report).Dated := by
  intro t ht
  simp only [PipelineStatus.overlay] at ht
  have hreply : (agents.answer (.call connection deadline action request) x).1 =
      some (.ok report) := by
    revert h
    generalize (agents.answer (.call connection deadline action request) x).1 = reply
    intro h
    cases reply with
    | none => cases h
    | some reply => exact congrArg some h
  cases hrun : report.lastRun with
  | none =>
      rw [hrun] at ht
      exact hstatus t ht
  | some t' =>
      rw [hrun] at ht
      obtain rfl : t' = t := Option.some.inj ht
      exact agents.dated _ _ _ _ _ _ hx hreply _ hrun

/-- The status that is kept after a schedule call is dated. -/
theorem Scheduler.dated_placed {x : τ} (hx : agents.Proper x) {status : PipelineStatus}
    (hstatus : status.Dated) (connection : Connection) (deadline : Span) (action : PipelineAction)
    (request : PipelineRequest) (agent : String) :
    (placed status agent (answered agent deadline
      (agents.answer (.call connection deadline action request) x).1)).2.Dated := by
  cases hanswer : answered agent deadline
      (agents.answer (.call connection deadline action request) x).1 with
  | ok report => exact hstatus.overlay agents hx hanswer
  | error e => cases e <;> exact hstatus

/-- The status that is kept after a call to the executor is dated. -/
theorem Scheduler.dated_concluded {x : τ} (hx : agents.Proper x) {status : PipelineStatus}
    (hstatus : status.Dated) (connection : Connection) (deadline : Span) (action : PipelineAction)
    (request : PipelineRequest) (agent : String) :
    (concluded status (answered agent deadline
      (agents.answer (.call connection deadline action request) x).1)).2.Dated := by
  cases hanswer : answered agent deadline
      (agents.answer (.call connection deadline action request) x).1 with
  | ok report => exact hstatus.overlay agents hx hanswer
  | error e => exact hstatus

theorem Scheduler.dated_schedule (deadline : Span) (w p : String) (spec : PipelineSpec)
    {status : PipelineStatus} (hstatus : status.Dated) {x : τ} (hx : agents.Proper x) :
    ((schedule deadline w p spec status).run agents.answer x).1.2.Dated := by
  have hchosen := agents.run_proper (chooseAgent w p spec status) hx
  rw [run_schedule]
  generalize (chooseAgent w p spec status).run agents.answer x = chosen at hchosen ⊢
  obtain ⟨chosen, x'⟩ := chosen
  cases chosen with
  | error e => exact hstatus
  | ok found => exact dated_placed agents hchosen hstatus _ _ _ _ _

theorem Scheduler.dated_callExecutor (deadline : Span) (action : PipelineAction) (w p : String)
    (spec : PipelineSpec) {status : PipelineStatus} (agent : String) (hstatus : status.Dated)
    {x : τ} (hx : agents.Proper x) :
    ((callExecutor deadline action w p spec status agent).run agents.answer x).1.2.Dated := by
  have hconnected := agents.proper (.connect agent) x hx
  rw [run_callExecutor]
  simp only
  generalize agents.answer (.connect agent) x = connected at hconnected ⊢
  obtain ⟨connected, x'⟩ := connected
  cases connected with
  | none => exact hstatus
  | some connection => exact dated_concluded agents hconnected hstatus _ _ _ _ _

/-- **The status that is kept after an action is dated** if the one before it was. -/
theorem Scheduler.dated_dispatch (deadline : Span) (action : PipelineAction) (w p : String)
    (spec : PipelineSpec) {status : PipelineStatus} (hstatus : status.Dated) {x : τ}
    (hx : agents.Proper x) :
    ((dispatch deadline action w p spec status).run agents.answer x).1.2.Dated := by
  cases action with
  | schedule => exact dated_schedule agents deadline w p spec hstatus hx
  | update =>
      simp only [dispatch, update]
      split
      · exact dated_callExecutor agents deadline .update w p spec _ hstatus hx
      · exact dated_schedule agents deadline w p spec hstatus hx
  | remove =>
      simp only [dispatch, remove]
      split
      · exact dated_callExecutor agents deadline .remove w p spec _ hstatus hx
      · exact hstatus

/-- The status that an action starts from is dated. -/
theorem Applied.Dated.statusFor {a : Applied} (h : a.Dated) (planned : PlannedAction) :
    (a.statusFor planned).Dated := by
  have hunconfirmed : ∀ status, (a.unconfirmed.get? planned.pipeline).map (·.status) = some status →
      status.Dated := by
    intro status hstatus
    obtain ⟨u, hu, rfl⟩ := Option.map_eq_some_iff.1 hstatus
    exact h.unconfirmed _ u hu
  have hgetD : ∀ o : Option PipelineStatus, (∀ status, o = some status → status.Dated) →
      (o.getD .empty).Dated := by
    intro o ho
    cases o with
    | none => exact PipelineStatus.dated_empty
    | some status => exact ho status rfl
  unfold Applied.statusFor
  apply hgetD
  intro status hstatus
  cases hact : planned.action <;> rw [hact] at hstatus
  · exact hunconfirmed status hstatus
  · exact h.pipelines _ status hstatus
  · cases hrecorded : a.pipelines.get? planned.pipeline with
    | none =>
        rw [hrecorded] at hstatus
        exact hunconfirmed status hstatus
    | some recorded =>
        rw [hrecorded] at hstatus
        obtain rfl : recorded = status := Option.some.inj hstatus
        exact h.pipelines _ _ hrecorded

/-- Folding in a dated status keeps the working copy dated. -/
theorem Applied.Dated.fold {a : Applied} (h : a.Dated) (planned : PlannedAction)
    (spec : PipelineSpec) {result : Scheduler.Result} (hstatus : result.2.Dated) :
    (a.fold planned spec result).Dated := by
  obtain ⟨outcome, status⟩ := result
  have hinsert : ∀ q st, (a.pipelines.insert planned.pipeline status).get? q = some st →
      st.Dated := by
    intro q st hq
    rcases KeyMap.get?_of_insert hq with ⟨-, rfl⟩ | hbefore
    · exact hstatus
    · exact h.pipelines q st hbefore
  have herase : ∀ q st, (a.pipelines.erase planned.pipeline).get? q = some st → st.Dated :=
    fun q st hq => h.pipelines q st (KeyMap.get?_of_erase hq)
  have hforget : ∀ q u, (a.unconfirmed.erase planned.pipeline).get? q = some u →
      u.status.Dated := fun q u hq => h.unconfirmed q u (KeyMap.get?_of_erase hq)
  cases outcome with
  | ok u =>
      simp only [Applied.fold, succeed]
      split
      · exact ⟨hinsert, hforget⟩
      · exact ⟨hinsert, hforget⟩
      · exact ⟨herase, hforget⟩
  | error e =>
      simp only [Applied.fold, fail]
      split
      · refine ⟨h.pipelines, ?_⟩
        intro q u hq
        rcases KeyMap.get?_of_insert hq with ⟨-, rfl⟩ | hbefore
        · exact hstatus
        · exact h.unconfirmed q u hbefore
      · exact h

/-- **A list of actions keeps the working copy dated.** -/
theorem Attempt.dated_all (deadline : Span) (w : String) (desired : WorkflowSpec)
    (actions : List PlannedAction) {a : Applied} (h : a.Dated) {x : τ} (hx : agents.Proper x) :
    ((all deadline w desired actions a).run agents.answer x).1.state.Dated := by
  induction actions generalizing a x with
  | nil => exact h
  | cons planned rest ih =>
      have hstep : ((a.apply deadline w desired planned).run agents.answer x).1.2.Dated := by
        rw [Applied.run_apply]
        cases a.specFor desired planned with
        | none => exact h
        | some spec =>
            exact h.fold planned spec
              (Scheduler.dated_dispatch agents deadline planned.action w planned.pipeline spec
                (h.statusFor planned) hx)
      have hproper := agents.run_proper (a.apply deadline w desired planned) hx
      have htail := ih hstep hproper
      rw [run_all_cons]
      simp only
      generalize ((a.apply deadline w desired planned).run agents.answer x).1.1 = outcome
      cases outcome <;> exact htail

end Reports

/-! ## A pass over a manifest -/

namespace Attempt

/-- Whether a pass over a manifest leaves the document as it is. -/
def quiet (attempt : Attempt) (desired : WorkflowSpec) (previous : Option WorkflowStatus) : Bool :=
  previous.isSome && attempt.applied.length + attempt.failures.length == 0 &&
    decide (attempt.state.spec.description = desired.description)

/-- The working copy as a pass over a manifest writes it, with the description of the manifest. -/
def settled (attempt : Attempt) (desired : WorkflowSpec) : Applied :=
  { attempt.state with
    spec := { attempt.state.spec with description := desired.description } }

/-- A pass in which something failed writes the document. -/
theorem quiet_eq_false {attempt : Attempt} (desired : WorkflowSpec)
    (previous : Option WorkflowStatus) (h : attempt.failures ≠ []) :
    attempt.quiet desired previous = false := by
  have hpos : 0 < attempt.failures.length := List.length_pos_iff.2 h
  have hcount : (attempt.applied.length + attempt.failures.length == 0) = false := by
    rw [beq_eq_false_iff_ne]
    omega
  simp [quiet, hcount]

end Attempt

/-- A manifest that is accepted is the resolved form of the workflow that was handed in. -/
theorem WorkflowSpec.ofManifest_ok {w : String} {data : Bytes} {desired : WorkflowSpec}
    (h : WorkflowSpec.ofManifest w data = .ok desired) :
    ∃ raw : WorkflowSpec, raw.name = w ∧ desired = raw.resolved := by
  unfold WorkflowSpec.ofManifest at h
  split at h
  · cases h
  · next raw _ =>
    split at h
    · cases h
    · next hname =>
      cases hvalid : raw.validate with
      | error e =>
          rw [hvalid] at h
          cases h
      | ok u =>
          rw [hvalid] at h
          exact ⟨raw, by simpa using hname, (Except.ok.inj h).symm⟩

/-- It is about the workflow of its key. -/
theorem WorkflowSpec.name_of_manifest {w : String} {data : Bytes} {desired : WorkflowSpec}
    (h : WorkflowSpec.ofManifest w data = .ok desired) : desired.name = w := by
  obtain ⟨raw, hraw, rfl⟩ := ofManifest_ok h
  exact hraw

section Passes

variable {τ : Type} (agents : AgentSide τ) (deadline : Span)

/-- What comes of the actions of a pass over a manifest. -/
def manifestAttempt (desired : WorkflowSpec) (previous : Option WorkflowStatus) (x : τ) :
    Attempt × τ :=
  let start := Applied.ofStatus? desired.name previous
  (Attempt.all deadline desired.name desired (manifestActions desired start) start).run
    agents.answer x

/-- What comes of the actions of a removal. -/
def removalAttempt (w : String) (doc : WorkflowStatus) (x : τ) : Attempt × τ :=
  let start := Applied.ofStatus doc
  (Attempt.all deadline w (.empty w) (removalActions start) start).run agents.answer x

namespace Site

/-- A document that was read has a sound working copy. -/
theorem sound_of_document {w : String} {s : Site τ} {previous : Option WorkflowStatus}
    (h : s.document w = previous) (name : String) : (Applied.ofStatus? name previous).Sound := by
  cases previous with
  | none => exact Applied.sound_empty name
  | some doc =>
      obtain ⟨e, -, hdoc⟩ := Option.bind_eq_some_iff.1 h
      exact Applied.sound_of_decode? hdoc

/-- What comes of the actions of a pass over a manifest. -/
theorem manifestAttempt_outcome (desired : WorkflowSpec) {previous : Option WorkflowStatus} (x : τ)
    (h : (Applied.ofStatus? desired.name previous).Sound) :
    Attempt.Outcome desired (manifestActions desired (Applied.ofStatus? desired.name previous))
      (Applied.ofStatus? desired.name previous) (manifestAttempt agents deadline desired previous x).1 :=
  Attempt.all_outcome _ _ _ _ (nodup_manifestActions desired h.apart) _ _

/-- A pass that leaves the document as it is has taken no action. -/
theorem manifestAttempt_of_quiet {desired : WorkflowSpec} {previous : Option WorkflowStatus} {x : τ}
    (h : (Applied.ofStatus? desired.name previous).Sound)
    (hquiet : (manifestAttempt agents deadline desired previous x).1.quiet desired previous = true) :
    manifestActions desired (Applied.ofStatus? desired.name previous) = [] ∧
      manifestAttempt agents deadline desired previous x =
        (⟨[], [], Applied.ofStatus? desired.name previous⟩, x) := by
  have hcount := (manifestAttempt_outcome agents deadline desired x h).count
  simp only [Attempt.quiet, Bool.and_eq_true, beq_iff_eq] at hquiet
  have hnone : manifestActions desired (Applied.ofStatus? desired.name previous) = [] :=
    List.length_eq_zero_iff.1 (hcount.symm.trans hquiet.1.2)
  refine ⟨hnone, ?_⟩
  unfold manifestAttempt
  simp only [hnone]
  rfl

/-- What comes of the actions of a removal. -/
theorem removalAttempt_outcome (w : String) (doc : WorkflowStatus) (x : τ)
    (h : (Applied.ofStatus doc).Sound) :
    Attempt.Outcome (.empty w) (removalActions (Applied.ofStatus doc)) (Applied.ofStatus doc)
      (removalAttempt agents deadline w doc x).1 :=
  Attempt.all_outcome _ _ _ _ (nodup_removalActions h.apart) _ _

/-- A pass ends with its report when its document has been written or deleted. -/
private theorem exec_concluded (writing : Control (Except ControlError Unit))
    (report : ReconcileReport) (s : Site τ) :
    (do match ← writing with
        | .ok () => pure (.ok report)
        | .error e => pure (.error e) : Control (Except ControlError ReconcileReport)).exec
          (answer agents) s =
      match writing.exec (answer agents) s with
      | (some (.ok ()), s) => (some (.ok report), s)
      | (some (.error e), s) => (some (.error e), s)
      | (none, s) => (none, s) := by
  rw [Program.exec_bind]
  generalize writing.exec (answer agents) s = written
  obtain ⟨outcome, s'⟩ := written
  cases outcome with
  | none => rfl
  | some outcome => cases outcome <;> rfl

/-- **A pass over a manifest**, after the document has been read: the actions, and then the document
is written unless nothing has changed. -/
theorem exec_reconcileWorkflow (desired : WorkflowSpec) (previous : Option WorkflowStatus)
    (s : Site τ) :
    (reconcileWorkflow deadline desired previous).exec (answer agents) s =
      let r := manifestAttempt agents deadline desired previous s.side
      if r.1.quiet desired previous then
        (some (.ok (r.1.report desired.name false)), { s with side := r.2 })
      else
        match (saveStatus (r.1.settled desired)).exec (answer agents) { s with side := r.2 } with
        | (some (.ok ()), s) => (some (.ok (r.1.report desired.name true)), s)
        | (some (.error e), s) => (some (.error e), s)
        | (none, s) => (none, s) := by
  unfold reconcileWorkflow
  simp only
  rw [Program.exec_bind, exec_remote agents (Control.Remote.all _ _ _ _ _)]
  simp only
  have hattempt : (Attempt.all deadline desired.name desired (manifestActions desired
      (Applied.ofStatus? desired.name previous)) (Applied.ofStatus? desired.name previous)).run
        agents.answer s.side = manifestAttempt agents deadline desired previous s.side := rfl
  rw [hattempt]
  generalize manifestAttempt agents deadline desired previous s.side = r
  change Program.exec (answer agents) (if r.1.quiet desired previous then _ else _) _ = _
  split
  · rfl
  · exact exec_concluded agents (saveStatus (r.1.settled desired)) _ _

/-- **A pass over a manifest** of a key. -/
theorem exec_reconcileManifest {key w : String} {data : Bytes} {desired : WorkflowSpec}
    (name : workflowName? key = some w) (valid : WorkflowSpec.ofManifest w data = .ok desired)
    (s : Site τ) :
    (reconcileManifest deadline key data).exec (answer agents) s =
      match (loadStatus w).exec (answer agents) s with
      | (some (.error e), s) => (some (.error e), s)
      | (some (.ok previous), s) =>
        (reconcileWorkflow deadline desired previous).exec (answer agents) s
      | (none, s) => (none, s) := by
  unfold reconcileManifest
  simp only [name, valid]
  rw [Program.exec_bind]
  generalize (loadStatus w).exec (answer agents) s = loading
  obtain ⟨outcome, s'⟩ := loading
  cases outcome with
  | none => rfl
  | some outcome => cases outcome <;> rfl

/-- A pass that ended with a report read the document and went on from it. -/
theorem passed_of_exec {key w : String} {data : Bytes} {desired : WorkflowSpec}
    (name : workflowName? key = some w) (valid : WorkflowSpec.ofManifest w data = .ok desired)
    {s s' : Site τ} {r : ReconcileReport}
    (h : (reconcileManifest deadline key data).exec (answer agents) s = (some (.ok r), s')) :
    ∃ previous s₀, (loadStatus w).exec (answer agents) s = (some (.ok previous), s₀) ∧
      (reconcileWorkflow deadline desired previous).exec (answer agents) s₀ =
        (some (.ok r), s') := by
  rw [exec_reconcileManifest agents deadline name valid] at h
  generalize (loadStatus w).exec (answer agents) s = loading at h ⊢
  obtain ⟨outcome, s₀⟩ := loading
  cases outcome with
  | none => cases h
  | some outcome =>
      cases outcome with
      | error e => cases h
      | ok previous => exact ⟨previous, s₀, rfl, h⟩

/-- **A removal**: the actions, and then the document is deleted, or written if some of them
failed. -/
theorem exec_removeWorkflow (w : String) (s : Site τ) :
    (removeWorkflow deadline w).exec (answer agents) s =
      match (loadStatus w).exec (answer agents) s with
      | (some (.error e), s) => (some (.error e), s)
      | (some (.ok none), s) => (some (.ok (.empty w)), s)
      | (some (.ok (some doc)), s) =>
        let r := removalAttempt agents deadline w doc s.side
        let writing := if r.1.failures.isEmpty then deleteStatus w else saveStatus r.1.state
        match writing.exec (answer agents) { s with side := r.2 } with
        | (some (.ok ()), s) => (some (.ok (r.1.report w true)), s)
        | (some (.error e), s) => (some (.error e), s)
        | (none, s) => (none, s)
      | (none, s) => (none, s) := by
  unfold removeWorkflow
  rw [Program.exec_bind]
  generalize (loadStatus w).exec (answer agents) s = loading
  obtain ⟨outcome, s'⟩ := loading
  cases outcome with
  | none => rfl
  | some outcome =>
      cases outcome with
      | error e => rfl
      | ok previous =>
          cases previous with
          | none => rfl
          | some doc =>
              simp only
              rw [Program.exec_bind, exec_remote agents (Control.Remote.all _ _ _ _ _)]
              simp only
              have hattempt : (Attempt.all deadline w (.empty w) (removalActions
                  (Applied.ofStatus doc)) (Applied.ofStatus doc)).run agents.answer s'.side =
                    removalAttempt agents deadline w doc s'.side := rfl
              rw [hattempt]
              generalize removalAttempt agents deadline w doc s'.side = r
              cases r.1.failures.isEmpty with
              | true => exact exec_concluded agents (deleteStatus w) _ _
              | false => exact exec_concluded agents (saveStatus r.1.state) _ _

end Site

end Passes

end FleetControl
