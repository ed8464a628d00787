import FleetControl.Proofs.Reconcile.Apart
import FleetControl.Proofs.Reconcile.Unanswered

/-!
# Removals that are accepted

When the agents that are on record are known and accept every call, nothing of a removal fails. So it
deletes the document that it has read, after it has sent the removal of every pipeline to the executor
on record. A document that cannot be read is left as it is, and the removal ends with an error.

* `AgentSide.Accepts` — agents that accept every call; `Fleet.accepts` — bench agents that do;
* `Host.Serves` — what is done for certain workflows, and leaves the others alone;
* `Host.Removal`, `Host.removal` — what a removal comes to.
-/

namespace FleetControl

open Control (Calm Opens Sent)
open Simulation (Backend)

/-! ## Agents that accept every call -/

/-- Whatever is asked from a ready state on, the agents of known names can be connected to, and they
accept the calls that follow. -/
structure AgentSide.Accepts {τ : Type} (agents : AgentSide τ) (known : String → Prop)
    (ready : τ → Prop) : Prop where
  stays : ∀ r x, ready x → ready (agents.answer r x).2
  accepted : ∀ name x, known name → ready x → ∃ connection,
    (agents.answer (.connect name) x).1 = some connection ∧
      ∀ deadline action request, ∃ report,
        (agents.answer (.call connection deadline action request)
          (agents.answer (.connect name) x).2).1 = some (.ok report)

namespace AgentSide.Accepts

variable {τ : Type} {agents : AgentSide τ} {known : String → Prop} {ready : τ → Prop}

theorem run (h : agents.Accepts known ready) {α : Type} (p : Control α) {x : τ} (hx : ready x) :
    ready (p.run agents.answer x).2 := by
  induction p generalizing x with
  | done a => exact hx
  | ask r next ih => exact ih _ (h.stays r x hx)

/-- A program leaves the agents ready, also if it breaks off. -/
theorem exec (h : agents.Accepts known ready) {α : Type} (p : Control α) {s : Host τ}
    (hs : ready s.side) : ready (p.exec (Host.answer agents) s).2.side := by
  have hanswer : ∀ r (s : Host τ), ready s.side → ready (Host.answer agents r s).2.side := by
    intro r s hs
    cases r with
    | clock => exact s.tick_side.symm ▸ hs
    | store op =>
        rw [Host.answer_store]
        exact s.tick_side.symm ▸ hs
    | _ => exact h.stays _ _ hs
  exact Program.exec_of_asked (J := fun s : Host τ => ready s.side) (P := fun _ => True)
    (fun r s _ hs => hanswer r s hs) hs (fun _ _ => trivial)

/-- **A removal is accepted**, if it is for an agent that is known or for nobody. -/
theorem removes (h : agents.Accepts known ready) {x : τ} (hx : ready x) (deadline : Span)
    (w p : String) (spec : PipelineSpec) {status : PipelineStatus}
    (hknown : ∀ name, status.executor = some name → known name) :
    ((Scheduler.dispatch deadline .remove w p spec status).run agents.answer x).1.1 = .ok () := by
  cases hexecutor : status.executor with
  | none =>
      simp only [Scheduler.dispatch, Scheduler.remove, hexecutor]
      rfl
  | some name =>
      obtain ⟨connection, hconnect, haccepted⟩ := h.accepted name x (hknown name hexecutor) hx
      obtain ⟨report, hreport⟩ := haccepted deadline .remove (Scheduler.request w p spec)
      rw [Scheduler.dispatch_of_executor deadline (by simp) w p spec hexecutor,
        Scheduler.callExecutor_eq, Program.run_bind', Control.run_connect]
      generalize agents.answer (.connect name) x = connected at hconnect hreport
      obtain ⟨found, x₁⟩ := connected
      obtain rfl : found = _ := hconnect
      exact Scheduler.concluded_ok_iff.2 ⟨report, Scheduler.answered_eq_ok_iff.2 hreport⟩

/-- **Nothing of a plan of removals fails** if the executors that it is for are known. -/
theorem trials (h : agents.Accepts known ready) {x : τ} (hx : ready x) (deadline : Span)
    (w : String) (desired : WorkflowSpec) {start : Applied} {plan : List PlannedAction}
    (hremove : ∀ planned ∈ plan, planned.action = .remove)
    (hknown : ∀ planned ∈ plan, ∀ name,
      (start.statusFor planned).executor = some name → known name) :
    ∀ t ∈ (start.trials agents.answer deadline w desired plan x).1, t.result.1 = .ok () := by
  induction plan generalizing x with
  | nil =>
      intro t ht
      cases ht
  | cons planned rest ih =>
      obtain ⟨hfirst, hothers⟩ := List.forall_mem_cons.1 hremove
      obtain ⟨hnames, hrest⟩ := List.forall_mem_cons.1 hknown
      simp only [Applied.trials, List.forall_mem_cons]
      refine ⟨?_, ih (h.run _ hx) hothers hrest⟩
      rw [hfirst]
      exact h.removes hx deadline w planned.pipeline _ hnames

end AgentSide.Accepts

/-- **A fleet in which every call is answered** accepts the calls to its directory. -/
theorem Fleet.accepts (directory : KeyMap Simulation.Registration) :
    side.Accepts (fun name => directory.contains name = true)
      fun x => x.Proper ∧ x.fates = [] ∧ x.directory = directory := by
  refine ⟨?_, ?_⟩
  · rintro r x ⟨hproper, hfates, hdirectory⟩
    refine ⟨side.proper r x hproper, fates_run (Control.ask r) hfates, ?_⟩
    cases r with
    | call c d action request =>
        change (x.call c.agent action request).2.directory = directory
        unfold Fleet.call
        split <;> exact hdirectory
    | _ => exact hdirectory
  · rintro name x hknown ⟨hproper, hfates, hdirectory⟩
    obtain ⟨r, hr⟩ := (KeyMap.contains_iff _ _).1 hknown
    rw [← hdirectory] at hr
    obtain ⟨-, a, ha, -⟩ := hproper.honest name r hr
    refine ⟨⟨r.agent⟩, ?_, fun deadline action request => call_of_fates hfates ha action request⟩
    change (x.directory.get? name).map _ = _
    rw [hr]
    rfl

/-! ## The plan of a removal -/

/-- The removal of a pipeline goes to the executor that the document names. -/
theorem WorkflowStatus.names_iff_statusFor {doc : WorkflowStatus}
    (h : ∀ p, ((Applied.ofStatus doc).slot p).Tidy) (name p : String) :
    doc.Names name p ↔
      ((Applied.ofStatus doc).statusFor ⟨p, .remove⟩).executor = some name := by
  unfold Names
  rw [← WorkflowSpec.contains_resolved]
  exact (h p).names_iff name

namespace Applied

variable {τ : Type} {agents : AgentSide τ} {known : String → Prop} {ready : τ → Prop}

/-- **A removal that is accepted**: nothing fails, and every executor that the document names accepts
the removal. -/
theorem removal_accepted (accepts : agents.Accepts known ready) {x : τ} (hx : ready x)
    (deadline : Span) (w : String) {doc : WorkflowStatus} (sound : (ofStatus doc).Sound)
    (tidy : ∀ p, ((ofStatus doc).slot p).Tidy)
    (hknown : ∀ name p, doc.Names name p → known name) {log : List Exchange}
    (hlog : (ofStatus doc).Courses deadline w ((ofStatus doc).trials agents.answer deadline w
      (.empty w) (removalActions (ofStatus doc)) x).1 log) :
    (∀ t ∈ ((ofStatus doc).trials agents.answer deadline w (.empty w)
      (removalActions (ofStatus doc)) x).1, t.result.1 = .ok ()) ∧
    ∀ name p, doc.Names name p → ∃ spec report,
      Sent log name .remove (Scheduler.request w p spec) (some (.ok report)) := by
  have hplans := plans_removal sound.apart w
  have htried := hplans.tried agents.answer deadline w x
  have hremove : ∀ planned ∈ removalActions (ofStatus doc), planned.action = .remove :=
    fun planned hplanned => ((mem_removalActions_iff _ _).1 hplanned).1
  have hok := accepts.trials hx deadline w (.empty w) hremove fun planned hplanned name hname => by
    obtain ⟨p, action⟩ := planned
    obtain rfl : action = .remove := hremove _ hplanned
    exact hknown name p ((WorkflowStatus.names_iff_statusFor tidy name p).2 hname)
  refine ⟨hok, fun name p hname => ?_⟩
  have hexecutor := (WorkflowStatus.names_iff_statusFor tidy name p).1 hname
  -- The pipeline has a trial, which succeeded.
  have hplanned : (⟨p, .remove⟩ : PlannedAction) ∈ removalActions (ofStatus doc) := by
    refine (mem_removalActions_iff _ _).2 ⟨rfl, hname.imp ?_ ?_⟩
    · exact fun ⟨hcontains, _⟩ => (WorkflowSpec.contains_resolved _ _).trans hcontains
    · exact fun ⟨u, hu, _⟩ => (KeyMap.contains_iff _ _).2 ⟨u, hu⟩
  rw [← htried.planned] at hplanned
  obtain ⟨t, ht, hplanned⟩ := List.mem_map.1 hplanned
  obtain ⟨own, hin, hcourse⟩ := hlog.course ht
  have haction : t.planned.action = .remove := congrArg PlannedAction.action hplanned
  have hpipeline : t.pipeline = p := congrArg PlannedAction.pipeline hplanned
  rw [hplanned, hpipeline] at hcourse
  rcases hcourse.ok_iff.1 (hok t ht) with ⟨-, hnobody⟩ | ⟨agent, sent, report, hsent⟩
  · rw [hexecutor] at hnobody
    cases hnobody
  · obtain ⟨-, ⟨-, places, -⟩ | ⟨rfl, -, hagent, -⟩⟩ := hcourse.of_sent hsent
    · rcases places with hact | ⟨hact, -⟩ <;> cases hact
    · obtain rfl := Option.some.inj (hexecutor.symm.trans hagent)
      exact ⟨t.spec, report, hsent.mono hin⟩

end Applied

/-! ## What is done for certain workflows -/

namespace Host

variable {τ : Type} {s s' s'' : Host τ} {W W' : String → Prop} {w : String}
variable {log log' : List Exchange}

/-- What is done between two states of a host is done for certain workflows: no key is changed but
those of their documents, and calls to agents are about them. -/
structure Serves (W : String → Prop) (s : Host τ) (log : List Exchange) (s' : Host τ) : Prop where
  spares : Spares W s s'
  opens : Opens log
  about : ∀ agent action request reply,
    Sent log agent action request reply → W request.workflow

namespace Serves

theorem mono (h : Serves W s log s') (hmore : ∀ w, W w → W' w) : Serves W' s log s' :=
  ⟨h.spares.mono hmore, h.opens, fun agent action request reply hsent =>
    hmore _ (h.about agent action request reply hsent)⟩

theorem trans (h : Serves W s log s') (h' : Serves W s' log' s'') :
    Serves W s (log ++ log') s'' := by
  refine ⟨h.spares.trans h'.spares, h.opens.append h'.opens, ?_⟩
  intro agent action request reply hsent
  rcases (Control.sent_append_iff h'.opens).1 hsent with hfirst | hsecond
  · exact h.about agent action request reply hfirst
  · exact h'.about agent action request reply hsecond

/-- Exchanges without calls. -/
theorem of_calm (hcalm : Calm log) (h : Spares W s s') : Serves W s log s' :=
  ⟨h, hcalm.opens, fun _ _ _ _ hsent => absurd hsent hcalm.not_sent⟩

end Serves

/-! ## The removal of a workflow -/

/-- At some instant that the clock shows from now on, the status document of a workflow is live and
can be read. -/
def Reads (s : Host τ) (w : String) (doc : WorkflowStatus) : Prop :=
  ∃ t ∈ s.clock, ∃ e, s.store.live? t.val (statusKey w) = some e ∧
    WorkflowStatus.decode? e.data = some doc

/-- The document of a workflow is gone, and every executor that it named has accepted the removal. -/
structure Removed (s : Host τ) (log : List Exchange) (w : String) (doc : WorkflowStatus) : Prop where
  gone : ∀ now, s.store.live? now (statusKey w) = none
  told : ∀ name p, doc.Names name p → ∃ spec report,
    Sent log name .remove (Scheduler.request w p spec) (some (.ok report))

/-- What a removal comes to. -/
inductive Removal (s : Host τ) (w : String) (log : List Exchange) (s' : Host τ) :
    Option (Except ControlError ReconcileReport) → Prop
  /-- The workflow is removed, unless its document is missing at some instant. -/
  | ended {report : ReconcileReport} (removed : ∀ e,
      (∀ t ∈ s.clock, s.store.live? t.val (statusKey w) = some e) →
        ∃ doc, WorkflowStatus.decode? e.data = some doc ∧ s'.Removed log w doc) :
      Removal s w log s' (some (.ok report))
  /-- The document cannot be read. -/
  | garbled {t : Moment} {e : Entry} (shown : t ∈ s.clock)
      (live : s.store.live? t.val (statusKey w) = some e)
      (decoded : WorkflowStatus.decode? e.data = none) :
      Removal s w log s' (some (.error .json))
  | broken {t : Moment} (shown : t ∈ s.clock)
      (undatable : ¬ s.store.DatableAt t.val (statusKey w)) : Removal s w log s' none

section

variable {agents : AgentSide τ} {known : String → Prop} {ready : τ → Prop} (deadline : Span)

/-- **The plan of a removal**, once the document has been read: the executors that it names accept,
and what is left to do is to delete it. -/
theorem removal_of_read (accepts : agents.Accepts known ready) (hready : ready s.side) {data : Bytes}
    {doc : WorkflowStatus} (hread : WorkflowStatus.decode? data = some doc)
    (hknown : ∀ name p, doc.Names name p → known name) :
    let p := Attempt.all deadline w (.empty w) (removalActions (.ofStatus doc)) (.ofStatus doc) >>=
      fun attempt => (if attempt.failures.isEmpty then deleteStatus w else saveStatus attempt.state)
        >>= fun written => pure (written.map fun _ => attempt.report w true)
    ∃ report x log, let deleting := (deleteStatus w).exec (answer agents) { s with side := x }
      p.exec (answer agents) s = (deleting.1.map fun done => done.map fun _ => report, deleting.2) ∧
      p.exchanges (answer agents) s = log ++
        (deleteStatus w).exchanges (answer agents) { s with side := x } ∧
      Opens log ∧
      (∀ agent action request reply,
        Sent log agent action request reply → request.workflow = w) ∧
      ∀ name p, doc.Names name p → ∃ spec report,
        Sent log name .remove (Scheduler.request w p spec) (some (.ok report)) := by
  intro p
  have sound := Applied.sound_of_decode? hread
  have hplans := Applied.plans_removal sound.apart w
  have hcourses := courses_plan agents deadline s hplans w
  obtain ⟨hok, htold⟩ := Applied.removal_accepted accepts hready deadline w sound
    (Applied.tidy_of_decode? hread) hknown hcourses
  have hran := exec_plan agents deadline hplans w s
  generalize (Applied.ofStatus doc).trials agents.answer deadline w (.empty w)
    (removalActions (.ofStatus doc)) s.side = tried at hcourses hok hran
  obtain ⟨trials, x⟩ := tried
  have hfailures : (Attempt.ofTrials (.ofStatus doc) trials).failures = [] := by
    refine List.filterMap_eq_nil_iff.2 fun t ht => ?_
    rw [Trial.failure?, hok t ht]
  refine ⟨(Attempt.ofTrials (.ofStatus doc) trials).report w true, x, _, ?_, ?_, hcourses.opens, ?_,
    htold⟩
  · rw [Program.exec_bind, hran]
    simp only [hfailures, List.isEmpty_nil, if_true]
    rw [Program.exec_bind_pure]
  · rw [Program.exchanges_bind, hran]
    simp only [hfailures, List.isEmpty_nil, if_true]
    rw [Program.exchanges_bind_pure]
  · intro agent action request reply hsent
    obtain ⟨t, -, own, hcourse, hsent⟩ := hcourses.of_sent hsent
    exact congrArg PipelineRequest.workflow (hcourse.of_sent hsent).1

/-- Deleting the document of a workflow that is served spares the others. -/
theorem Deletes.spares {V : String → Prop} (hw : V w) {outcome : Option (Except ControlError Unit)}
    {b : Backend} (h : s.Deletes w outcome b) : Spares V s { s.tick with store := b } := by
  cases h with
  | deleted live puts => exact .of_puts hw puts
  | missing dead sheds => exact .of_sheds sheds
  | broken undatable sheds => exact .of_sheds sheds

/-- A removal whose calls are made ends with deleting the document that it has read. -/
theorem removal_of_deletes {e : Entry} {doc : WorkflowStatus}
    (live : s.store.live? s.tick.now.val (statusKey w) = some e)
    (decoded : WorkflowStatus.decode? e.data = some doc) {s₁ : Host τ} (hstore : s₁.store = s.store)
    (hlater : s₁.tick.now ∈ s.clock) {log : List Exchange}
    (htold : ∀ name p, doc.Names name p → ∃ spec report,
      Sent log name .remove (Scheduler.request w p spec) (some (.ok report)))
    {outcome : Option (Except ControlError Unit)} {b : Backend} (hdeletes : s₁.Deletes w outcome b)
    (report : ReconcileReport) :
    s.Removal w log { s₁.tick with store := b }
      (outcome.map fun done => done.map fun _ => report) := by
  cases hdeletes with
  | deleted live' puts =>
      refine .ended fun e' he' => ?_
      obtain rfl := Option.some.inj (live.symm.trans (he' _ s.now_tick_mem_clock))
      exact ⟨doc, decoded, Backend.live?_of_deleted (by simp) puts, htold⟩
  | missing dead sheds =>
      rw [hstore] at dead
      refine .ended fun e' he' => ?_
      cases dead.symm.trans (he' _ hlater)
  | broken undatable sheds =>
      rw [hstore] at undatable
      exact .broken hlater undatable

/-- **A removal** that agents accept. -/
theorem removal (accepts : agents.Accepts known ready) (hready : ready s.side)
    (hknown : ∀ doc name p, s.Reads w doc → doc.Names name p → known name) :
    let log := (removeWorkflow deadline w).exchanges (answer agents) s
    ∃ outcome s', (removeWorkflow deadline w).exec (answer agents) s = (outcome, s') ∧
      s.Removal w log s' outcome ∧ Serves (fun v => v = w ∧ ∃ doc, s.Reads v doc) s log s' := by
  have hcalm := calm_loadStatus agents s w
  have hnow := s.now_tick_mem_clock
  obtain ⟨loaded, b, hload, hloads⟩ := loads agents s w
  intro log
  simp only [log]
  rw [removeWorkflow_eq, Program.exec_bind, Program.exchanges_bind, hload]
  cases hloads with
  | missing dead sheds =>
      refine ⟨_, _, rfl, .ended fun e he => ?_, .of_calm (hcalm.append .nil) (.of_sheds sheds)⟩
      cases dead.symm.trans (he _ hnow)
  | garbled live decoded =>
      exact ⟨_, _, rfl, .garbled hnow live decoded,
        .of_calm (hcalm.append .nil) (.of_sheds (.refl _ _))⟩
  | broken undatable sheds =>
      exact ⟨_, _, rfl, .broken hnow undatable, .of_calm (hcalm.append .nil) (.of_sheds sheds)⟩
  | @read e doc live decoded =>
      have hreads : s.Reads w doc := ⟨_, hnow, e, live, decoded⟩
      have hside : ({ s.tick with store := s.store } : Host τ).side = s.side := tick_side s
      obtain ⟨report, x, sending, hexec, hexchanges, hopens, habout, htold⟩ :=
        removal_of_read (s := { s.tick with store := s.store }) (w := w) deadline accepts
          (hside ▸ hready) decoded fun name p => hknown doc name p hreads
      simp only
      rw [hexec, hexchanges]
      -- What is left to do is to delete the document where it was read.
      generalize hplanned : ({ s.tick with store := s.store, side := x } : Host τ) = s₁
      have hsending : Serves (fun v => v = w ∧ ∃ doc, s.Reads v doc) s
          ((loadStatus w).exchanges (answer agents) s ++ sending) s₁ := by
        refine (Serves.of_calm hcalm (.of_sheds (.refl _ _))).trans ?_
        rw [← hplanned]
        refine ⟨.of_side x, hopens, fun agent action request reply hsent => ?_⟩
        obtain rfl := habout agent action request reply hsent
        exact ⟨rfl, doc, hreads⟩
      obtain ⟨deleted, b', hdelete, hdeletes⟩ := deletes agents s₁ w
      rw [hdelete, ← List.append_assoc]
      refine ⟨_, _, rfl, ?_, hsending.trans (.of_calm (calm_deleteStatus agents s₁ w)
        (hdeletes.spares ⟨rfl, doc, hreads⟩))⟩
      refine removal_of_deletes live decoded (by rw [← hplanned])
        (hsending.spares.clock s₁.now_tick_mem_clock) (fun name p hname => ?_) hdeletes report
      obtain ⟨spec, report, hsent⟩ := htold name p hname
      refine ⟨spec, report, hsent.mono ?_⟩
      exact ⟨(loadStatus w).exchanges (answer agents) s, _, rfl⟩

end

end Host

end FleetControl
