import FleetControl.Proofs.Plan
import FleetControl.Proofs.Site.Basic
import Mathlib.Tactic.Tauto

/-!
# Carrying out actions

The actions of a pass are carried out one after the other, and each reads and changes only what the
working copy knows about its own pipeline. So after a pass that is about each pipeline at most once,
the working copy tells the outcome of every action: a pipeline whose action succeeded has the spec
that was sent, or none after a removal, and a pipeline whose action failed has the spec that it had.

* `Control.Remote.all` — carrying out actions only concerns agents;
* `Applied.slot` — what a working copy knows about one pipeline;
* `Applied.effect` — what one action does;
* `Attempt.all_outcome` — what a list of actions does.
-/

namespace FleetControl

/-! ## Actions only concern agents -/

namespace Scheduler

/-- The agent that placement chooses. -/
def placeAnew (w p : String) (spec : PipelineSpec) :
    Control (Except AgentError (String × Connection)) := do
  let candidates ← Control.agents
  match ← Control.place spec candidates with
  | none => pure (.error (.noCandidate (w ++ "/" ++ p)))
  | some agent =>
    match ← Control.connect agent with
    | none => pure (.error (.unavailable agent))
    | some connection => pure (.ok (agent, connection))

/-- A pipeline goes back to the agent that an earlier call left there if that is known, and else
where placement chooses. -/
theorem chooseAgent_eq (w p : String) (spec : PipelineSpec) (status : PipelineStatus) :
    chooseAgent w p spec status = match status.executor with
      | none => placeAnew w p spec
      | some agent => Control.connect agent >>= fun found =>
        match found with
        | some connection => pure (.ok (agent, connection))
        | none => placeAnew w p spec := by
  unfold chooseAgent
  cases status.executor with
  | none => rfl
  | some agent =>
      simp only
      congr 1
      funext found
      cases found <;> rfl

end Scheduler

namespace Control.Remote

theorem placeAnew (w p : String) (spec : PipelineSpec) :
    Remote (Scheduler.placeAnew w p spec) := by
  refine bind (request rfl) fun candidates => bind (request rfl) fun choice => ?_
  cases choice with
  | none => exact pure _
  | some agent =>
      refine bind (request rfl) fun found => ?_
      cases found <;> exact pure _

theorem chooseAgent (w p : String) (spec : PipelineSpec) (status : PipelineStatus) :
    Remote (Scheduler.chooseAgent w p spec status) := by
  rw [Scheduler.chooseAgent_eq]
  cases status.executor with
  | none => exact placeAnew w p spec
  | some agent =>
      refine bind (request rfl) fun found => ?_
      cases found with
      | none => exact placeAnew w p spec
      | some connection => exact pure _

theorem schedule (deadline : Span) (w p : String) (spec : PipelineSpec)
    (status : PipelineStatus) : Remote (Scheduler.schedule deadline w p spec status) := by
  refine bind (chooseAgent w p spec status) fun chosen => ?_
  cases chosen with
  | error e => exact pure _
  | ok found =>
      refine bind (request rfl) fun reply => ?_
      split <;> exact pure _

theorem callExecutor (deadline : Span) (action : PipelineAction) (w p : String)
    (spec : PipelineSpec) (status : PipelineStatus) (agent : String) :
    Remote (Scheduler.callExecutor deadline action w p spec status agent) := by
  refine bind (request rfl) fun found => ?_
  cases found with
  | none => exact pure _
  | some connection =>
      refine bind (request rfl) fun reply => ?_
      split <;> exact pure _

theorem dispatch (deadline : Span) (action : PipelineAction) (w p : String) (spec : PipelineSpec)
    (status : PipelineStatus) :
    Remote (Scheduler.dispatch deadline action w p spec status) := by
  cases action with
  | schedule => exact schedule deadline w p spec status
  | update =>
      simp only [Scheduler.dispatch, Scheduler.update]
      split
      · exact callExecutor deadline .update w p spec status _
      · exact schedule deadline w p spec status
  | remove =>
      simp only [Scheduler.dispatch, Scheduler.remove]
      split
      · exact callExecutor deadline .remove w p spec status _
      · exact pure _

theorem apply (deadline : Span) (w : String) (desired : WorkflowSpec) (planned : PlannedAction)
    (a : Applied) : Remote (a.apply deadline w desired planned) := by
  unfold Applied.apply
  split
  · exact pure _
  · exact bind (dispatch _ _ _ _ _ _) fun result => pure _

theorem all (deadline : Span) (w : String) (desired : WorkflowSpec) (actions : List PlannedAction)
    (a : Applied) : Remote (Attempt.all deadline w desired actions a) := by
  induction actions generalizing a with
  | nil => exact pure _
  | cons planned rest ih =>
      exact bind (apply deadline w desired planned a) fun r =>
        bind (ih r.2) fun attempt => pure _

end Control.Remote

/-! ## Runs of single calls -/

namespace Scheduler

/-- What a call to the executor leads to. -/
def concluded (status : PipelineStatus) : Except AgentError PipelineReport → Result
  | .ok report => (.ok (), status.overlay report)
  | .error e => (.error e, status)

/-- What a schedule call to an agent leads to. -/
def placed (status : PipelineStatus) (agent : String) : Except AgentError PipelineReport → Result
  | .ok report => (.ok (), status.overlay report)
  | .error (.timeout a d) => (.error (.timeout a d), status.attempted agent)
  | .error e => (.error e, status)

/-- A schedule is one call to the agent that was chosen. -/
theorem schedule_eq (deadline : Span) (w p : String) (spec : PipelineSpec)
    (status : PipelineStatus) :
    schedule deadline w p spec status = chooseAgent w p spec status >>= fun chosen =>
      match chosen with
      | .error e => pure (.error e, status)
      | .ok (agent, connection) =>
        Control.call connection deadline .schedule (request w p spec) >>= fun reply =>
          pure (placed status agent (answered agent deadline reply)) := by
  unfold schedule
  congr 1
  funext chosen
  cases chosen with
  | error e => rfl
  | ok found =>
      simp only
      congr 1
      funext reply
      cases answered found.1 deadline reply with
      | ok report => rfl
      | error e => cases e <;> rfl

/-- A call to the executor is one call, if the directory has it. -/
theorem callExecutor_eq (deadline : Span) (action : PipelineAction) (w p : String)
    (spec : PipelineSpec) (status : PipelineStatus) (agent : String) :
    callExecutor deadline action w p spec status agent = Control.connect agent >>= fun found =>
      match found with
      | none => pure (.error (.unavailable agent), status)
      | some connection =>
        Control.call connection deadline action (request w p spec) >>= fun reply =>
          pure (concluded status (answered agent deadline reply)) := by
  unfold callExecutor
  congr 1
  funext found
  cases found with
  | none => rfl
  | some connection =>
      simp only
      congr 1
      funext reply
      cases answered agent deadline reply <;> rfl

variable {τ : Type} (answer : (r : Request) → τ → r.Reply × τ) (deadline : Span) (w p : String)
variable (spec : PipelineSpec) (status : PipelineStatus) (x : τ)

theorem run_placeAnew : (placeAnew w p spec).run answer x =
    let found := answer .agents x
    let choice := answer (.place spec found.1) found.2
    match choice.1 with
    | none => (.error (.noCandidate (w ++ "/" ++ p)), choice.2)
    | some agent =>
      let connected := answer (.connect agent) choice.2
      match connected.1 with
      | none => (.error (.unavailable agent), connected.2)
      | some connection => (.ok (agent, connection), connected.2) := by
  unfold placeAnew
  rw [Program.run_bind', Program.run_bind', Control.run_agents]
  generalize answer .agents x = found
  rw [Control.run_place]
  simp only
  generalize answer (.place spec found.1) found.2 = choice
  obtain ⟨choice, x⟩ := choice
  cases choice with
  | none => rfl
  | some agent =>
      simp only
      rw [Program.run_bind', Control.run_connect]
      generalize answer (.connect agent) x = connected
      obtain ⟨connected, x⟩ := connected
      cases connected <;> rfl

theorem run_chooseAgent : (chooseAgent w p spec status).run answer x =
    match status.executor with
    | none => (placeAnew w p spec).run answer x
    | some agent =>
      let connected := answer (.connect agent) x
      match connected.1 with
      | none => (placeAnew w p spec).run answer connected.2
      | some connection => (.ok (agent, connection), connected.2) := by
  rw [chooseAgent_eq]
  cases status.executor with
  | none => rfl
  | some agent =>
      simp only
      rw [Program.run_bind', Control.run_connect]
      generalize answer (.connect agent) x = connected
      obtain ⟨connected, x⟩ := connected
      cases connected <;> rfl

theorem run_schedule : (schedule deadline w p spec status).run answer x =
    let chosen := (chooseAgent w p spec status).run answer x
    match chosen.1 with
    | .error e => ((.error e, status), chosen.2)
    | .ok (agent, connection) =>
      let r := answer (.call connection deadline .schedule (request w p spec)) chosen.2
      (placed status agent (answered agent deadline r.1), r.2) := by
  rw [schedule_eq, Program.run_bind']
  generalize (chooseAgent w p spec status).run answer x = chosen
  obtain ⟨chosen, x⟩ := chosen
  cases chosen <;> rfl

theorem run_callExecutor (action : PipelineAction) (agent : String) :
    (callExecutor deadline action w p spec status agent).run answer x =
      let connected := answer (.connect agent) x
      match connected.1 with
      | none => ((.error (.unavailable agent), status), connected.2)
      | some connection =>
        let r := answer (.call connection deadline action (request w p spec)) connected.2
        (concluded status (answered agent deadline r.1), r.2) := by
  rw [callExecutor_eq, Program.run_bind', Control.run_connect]
  generalize answer (.connect agent) x = connected
  obtain ⟨connected, x⟩ := connected
  cases connected <;> rfl

/-- An update or a removal of a pipeline with an executor is a call to the executor. -/
theorem dispatch_of_executor (deadline : Span) {action : PipelineAction} (hact : action ≠ .schedule)
    (w p : String) (spec : PipelineSpec) {status : PipelineStatus} {name : String}
    (h : status.executor = some name) :
    dispatch deadline action w p spec status =
      callExecutor deadline action w p spec status name := by
  cases action with
  | schedule => exact absurd rfl hact
  | update => simp only [dispatch, update, h]
  | remove => simp only [dispatch, remove, h]

end Scheduler

/-! ## One action -/

/-- What a working copy knows about a pipeline. -/
structure Slot where
  spec : Option PipelineSpec
  status : Option PipelineStatus
  unconfirmed : Option UnconfirmedPipeline

namespace Applied

/-- What the working copy knows about a pipeline. -/
def slot (a : Applied) (p : String) : Slot :=
  ⟨a.spec.pipelines.get? p, a.pipelines.get? p, a.unconfirmed.get? p⟩

section

variable {a b : Applied} {p : String} (h : a.slot p = b.slot p)

include h

/-- What a working copy knows about a pipeline is its spec, -/
theorem spec_of_slot : a.spec.pipelines.get? p = b.spec.pipelines.get? p := congrArg Slot.spec h

/-- its status, -/
theorem status_of_slot : a.pipelines.get? p = b.pipelines.get? p := congrArg Slot.status h

/-- and whether it is unconfirmed. -/
theorem unconfirmed_of_slot : a.unconfirmed.get? p = b.unconfirmed.get? p :=
  congrArg Slot.unconfirmed h

end

/-- What is needed for a pipeline is told by what is known about it. -/
theorem needs_congr {a b : Applied} (desired : WorkflowSpec) {p : String}
    (h : a.slot p = b.slot p) : a.needs desired p = b.needs desired p := by
  unfold needs KeyMap.contains
  rw [spec_of_slot h, unconfirmed_of_slot h]

/-- The spec that a pipeline has after its action succeeded. -/
def target (desired : WorkflowSpec) (planned : PlannedAction) : Option PipelineSpec :=
  match planned.action with
  | .remove => none
  | _ => desired.pipelines.get? planned.pipeline

variable (a : Applied) (planned : PlannedAction) (spec : PipelineSpec) (result : Scheduler.Result)

/-- An action changes nothing about other pipelines. -/
theorem slot_fold {q : String} (h : q ≠ planned.pipeline) :
    (a.fold planned spec result).slot q = a.slot q := by
  obtain ⟨outcome, status⟩ := result
  cases outcome with
  | ok u => cases hact : planned.action <;>
      simp [fold, succeed, slot, hact, KeyMap.get?_insert, KeyMap.get?_erase, h]
  | error e =>
      simp only [fold, fail]
      split
      · simp [slot, KeyMap.get?_insert, h]
      · rfl

/-- What the working copy knows about a pipeline after its action succeeded. -/
theorem slot_fold_ok (status : PipelineStatus) :
    (a.fold planned spec (.ok (), status)).slot planned.pipeline =
      if planned.action = .remove then ⟨none, none, none⟩ else ⟨some spec, some status, none⟩ := by
  cases hact : planned.action <;> simp [fold, succeed, slot, hact]

/-- What the working copy knows about a pipeline after its action failed. -/
theorem slot_fold_error (e : AgentError) (status : PipelineStatus) :
    (a.fold planned spec (.error e, status)).slot planned.pipeline =
      if planned.action = .schedule ∧ status.executor.isSome = true then
        { a.slot planned.pipeline with unconfirmed := some ⟨spec, status⟩ }
      else a.slot planned.pipeline := by
  simp only [fold, fail]
  split <;> simp [slot]

/-- An action keeps the workflow's name and description. -/
theorem frame_fold : (a.fold planned spec result).spec.name = a.spec.name ∧
    (a.fold planned spec result).spec.description = a.spec.description := by
  obtain ⟨outcome, status⟩ := result
  cases outcome with
  | ok u => cases hact : planned.action <;> simp [fold, succeed, hact]
  | error e =>
      simp only [fold, fail]
      split <;> exact ⟨rfl, rfl⟩

/-- After a success the spec is the one that was aimed at, and nothing is unconfirmed. -/
theorem fold_ok {desired : WorkflowSpec} (hspec : a.specFor desired planned = some spec)
    (status : PipelineStatus) :
    let a' := a.fold planned spec (.ok (), status)
    a'.spec.pipelines.get? planned.pipeline = target desired planned ∧
      a'.unconfirmed.get? planned.pipeline = none := by
  unfold specFor at hspec
  cases hact : planned.action <;>
    simp_all [fold, succeed, target]

/-- After a failure the spec is the one that was there, and so is what is unconfirmed, unless the
pipeline was to be scheduled. -/
theorem fold_error (e : AgentError) (status : PipelineStatus) :
    (a.fold planned spec (.error e, status)).spec = a.spec ∧
      (planned.action ≠ .schedule →
        (a.fold planned spec (.error e, status)).unconfirmed = a.unconfirmed) := by
  simp only [fold, fail]
  split
  · next h => exact ⟨rfl, fun hne => absurd h.1 hne⟩
  · exact ⟨rfl, fun _ => rfl⟩

end Applied

section Run

variable {τ : Type} (answer : (r : Request) → τ → r.Reply × τ) (deadline : Span) (w : String)
variable (desired : WorkflowSpec)

/-- The run of one action: nothing if there is no spec to send, and else what its call leads to. -/
theorem Applied.run_apply (planned : PlannedAction) (a : Applied) (x : τ) :
    (a.apply deadline w desired planned).run answer x =
      match a.specFor desired planned with
      | none =>
        ((.error (.other ("pipeline " ++ planned.pipeline ++ " missing from plan input")), a), x)
      | some spec =>
        let r := (Scheduler.dispatch deadline planned.action w planned.pipeline spec
          (a.statusFor planned)).run answer x
        ((r.1.1.mapError .agent, a.fold planned spec r.1), r.2) := by
  unfold Applied.apply
  cases a.specFor desired planned with
  | none => rfl
  | some spec =>
      simp only
      rw [Program.run_bind']
      rfl

/-- What an action did to the working copy, told by its outcome. -/
structure Applied.Effect (desired : WorkflowSpec) (planned : PlannedAction) (a : Applied)
    (outcome : Except ControlError Unit) (a' : Applied) : Prop where
  others : ∀ q, q ≠ planned.pipeline → a'.slot q = a.slot q
  frame : a'.spec.name = a.spec.name ∧ a'.spec.description = a.spec.description
  applied : outcome = .ok () →
    a'.spec.pipelines.get? planned.pipeline = target desired planned ∧
      a'.unconfirmed.get? planned.pipeline = none
  failed : outcome ≠ .ok () →
    a'.spec.pipelines.get? planned.pipeline = a.spec.pipelines.get? planned.pipeline ∧
      (planned.action ≠ .schedule →
        a'.unconfirmed.get? planned.pipeline = a.unconfirmed.get? planned.pipeline)

/-- What folding the result of a call in does. -/
theorem Applied.effect_fold {planned : PlannedAction} {a : Applied} {spec : PipelineSpec}
    (hspec : a.specFor desired planned = some spec) (result : Scheduler.Result) :
    Effect desired planned a (result.1.mapError .agent) (a.fold planned spec result) := by
  obtain ⟨outcome, status⟩ := result
  refine ⟨fun q hq => a.slot_fold planned spec _ hq, a.frame_fold planned spec _, ?_, ?_⟩
  · intro hok
    cases outcome with
    | ok u => exact a.fold_ok planned spec hspec status
    | error e => cases hok
  · intro hfailed
    cases outcome with
    | ok u => exact absurd rfl hfailed
    | error e =>
        obtain ⟨hsame, hkept⟩ := a.fold_error planned spec e status
        exact ⟨by rw [hsame], fun hne => by rw [hkept hne]⟩

/-- **What one action does**: it changes nothing about other pipelines, and about its own it does
what its outcome says. -/
theorem Applied.effect (planned : PlannedAction) (a : Applied) (x : τ) :
    Effect desired planned a ((a.apply deadline w desired planned).run answer x).1.1
      ((a.apply deadline w desired planned).run answer x).1.2 := by
  rw [Applied.run_apply]
  cases hspec : a.specFor desired planned with
  | none =>
      exact ⟨fun _ _ => rfl, ⟨rfl, rfl⟩, (fun h => by cases h), fun _ => ⟨rfl, fun _ => rfl⟩⟩
  | some spec => exact effect_fold desired hspec _

/-! ## A list of actions -/

/-- The run of a list of actions is that of the first and then that of the others. -/
theorem Attempt.run_all_cons (planned : PlannedAction) (rest : List PlannedAction) (a : Applied)
    (x : τ) :
    (Attempt.all deadline w desired (planned :: rest) a).run answer x =
      let r := (a.apply deadline w desired planned).run answer x
      let r' := (Attempt.all deadline w desired rest r.1.2).run answer r.2
      (r'.1.cons planned r.1.1, r'.2) := by
  rw [Attempt.all, Program.run_bind', Program.run_bind']
  rfl

/-- What is needed for the other pipelines is still needed after an action. -/
private theorem needs_after {actions : List PlannedAction} {planned : PlannedAction} {a : Applied}
    (hfresh : planned.pipeline ∉ actions.map (·.pipeline)) (x : τ)
    (hneeds : ∀ other ∈ actions, a.needs desired other.pipeline = some other.action) :
    ∀ other ∈ actions,
      ((a.apply deadline w desired planned).run answer x).1.2.needs desired other.pipeline =
        some other.action := by
  intro other hother
  have hne : other.pipeline ≠ planned.pipeline := fun heq =>
    hfresh (List.mem_map.2 ⟨other, hother, heq⟩)
  have hslot := (Applied.effect answer deadline w desired planned a x).others
  rw [Applied.needs_congr desired (hslot _ hne)]
  exact hneeds other hother

/-- What every action keeps up that is needed when its turn comes, a list of actions keeps up. -/
theorem Attempt.all_preserves {P : Applied → τ → Prop} {actions : List PlannedAction}
    (hstep : ∀ planned a x, P a x → a.needs desired planned.pipeline = some planned.action →
      P ((a.apply deadline w desired planned).run answer x).1.2
        ((a.apply deadline w desired planned).run answer x).2)
    (hnodup : (actions.map (·.pipeline)).Nodup) {a : Applied} {x : τ}
    (hneeds : ∀ planned ∈ actions, a.needs desired planned.pipeline = some planned.action)
    (h : P a x) :
    P ((all deadline w desired actions a).run answer x).1.state
      ((all deadline w desired actions a).run answer x).2 := by
  induction actions generalizing a x with
  | nil => exact h
  | cons planned rest ih =>
      obtain ⟨hfresh, hrest⟩ := List.nodup_cons.1 hnodup
      have hfirst := hstep planned a x h (hneeds planned (by simp))
      have htail := ih hrest (needs_after answer deadline w desired hfresh x
        fun other hother => hneeds other (by simp [hother])) hfirst
      rw [run_all_cons]
      simp only
      generalize ((a.apply deadline w desired planned).run answer x).1.1 = outcome
      cases outcome <;> exact htail

/-- Nothing fails in a list of actions each of which succeeds when its turn comes. -/
theorem Attempt.failures_eq_nil {P : Applied → τ → Prop} {actions : List PlannedAction}
    (hstep : ∀ planned ∈ actions, ∀ a x, P a x →
      a.needs desired planned.pipeline = some planned.action →
        ((a.apply deadline w desired planned).run answer x).1.1 = .ok () ∧
          P ((a.apply deadline w desired planned).run answer x).1.2
            ((a.apply deadline w desired planned).run answer x).2)
    (hnodup : (actions.map (·.pipeline)).Nodup) {a : Applied} {x : τ}
    (hneeds : ∀ planned ∈ actions, a.needs desired planned.pipeline = some planned.action)
    (h : P a x) : ((all deadline w desired actions a).run answer x).1.failures = [] := by
  induction actions generalizing a x with
  | nil => rfl
  | cons planned rest ih =>
      obtain ⟨hfresh, hrest⟩ := List.nodup_cons.1 hnodup
      obtain ⟨hok, hfirst⟩ := hstep planned (by simp) a x h (hneeds planned (by simp))
      have htail := ih (fun other hother => hstep other (by simp [hother])) hrest
        (needs_after answer deadline w desired hfresh x
          fun other hother => hneeds other (by simp [hother])) hfirst
      rw [run_all_cons]
      simp only [hok, cons]
      exact htail

end Run

/-- What came of a list of actions, told action by action. -/
structure Attempt.Outcome (desired : WorkflowSpec) (actions : List PlannedAction) (a : Applied)
    (attempt : Attempt) : Prop where
  /-- Every action is reported, as applied or as failed. -/
  reported : ∀ planned, planned ∈ actions ↔
    planned ∈ attempt.applied ∨ ∃ f ∈ attempt.failures, planned = ⟨f.pipeline, f.action⟩
  count : attempt.applied.length + attempt.failures.length = actions.length
  frame : attempt.state.spec.name = a.spec.name ∧
    attempt.state.spec.description = a.spec.description
  untouched : ∀ p, (∀ planned ∈ actions, planned.pipeline ≠ p) →
    attempt.state.slot p = a.slot p
  applied : ∀ planned ∈ attempt.applied,
    attempt.state.spec.pipelines.get? planned.pipeline = Applied.target desired planned ∧
      attempt.state.unconfirmed.get? planned.pipeline = none
  failed : ∀ f ∈ attempt.failures,
    attempt.state.spec.pipelines.get? f.pipeline = a.spec.pipelines.get? f.pipeline ∧
      (f.action ≠ .schedule →
        attempt.state.unconfirmed.get? f.pipeline = a.unconfirmed.get? f.pipeline)

/-- Without actions nothing comes of them. -/
theorem Attempt.Outcome.nil (desired : WorkflowSpec) (a : Applied) :
    Outcome desired [] a ⟨[], [], a⟩ :=
  ⟨by simp, rfl, ⟨rfl, rfl⟩, fun _ _ => rfl, by simp, by simp⟩

/-- What failed after a first action about another pipeline is kept as it was before that. -/
private theorem Attempt.Outcome.failed_after {desired : WorkflowSpec} {planned : PlannedAction}
    {rest : List PlannedAction} {a a' : Applied} {outcome : Except ControlError Unit}
    {attempt : Attempt} (hfresh : ∀ other ∈ rest, other.pipeline ≠ planned.pipeline)
    (hfirst : Applied.Effect desired planned a outcome a') (htail : Outcome desired rest a' attempt)
    {f : DispatchFailure} (hf : f ∈ attempt.failures) :
    attempt.state.spec.pipelines.get? f.pipeline = a.spec.pipelines.get? f.pipeline ∧
      (f.action ≠ .schedule →
        attempt.state.unconfirmed.get? f.pipeline = a.unconfirmed.get? f.pipeline) := by
  have hmem := (htail.reported ⟨f.pipeline, f.action⟩).2 (.inr ⟨f, hf, rfl⟩)
  have hsame := hfirst.others f.pipeline (hfresh _ hmem)
  obtain ⟨hspec, hunconfirmed⟩ := htail.failed f hf
  exact ⟨hspec.trans (Applied.spec_of_slot hsame),
    fun hne => (hunconfirmed hne).trans (Applied.unconfirmed_of_slot hsame)⟩

/-- The outcome of a list of actions is that of the first and those of the others. -/
theorem Attempt.Outcome.cons {desired : WorkflowSpec} {planned : PlannedAction}
    {rest : List PlannedAction} {a a' : Applied} {outcome : Except ControlError Unit}
    {attempt : Attempt} (hfresh : ∀ other ∈ rest, other.pipeline ≠ planned.pipeline)
    (hfirst : Applied.Effect desired planned a outcome a') (htail : Outcome desired rest a' attempt) :
    Outcome desired (planned :: rest) a (attempt.cons planned outcome) := by
  have hown := htail.untouched planned.pipeline hfresh
  have hownSpec := Applied.spec_of_slot hown
  have hownUnconfirmed := Applied.unconfirmed_of_slot hown
  have huntouched : ∀ p, (∀ other ∈ planned :: rest, other.pipeline ≠ p) →
      attempt.state.slot p = a.slot p := by
    intro p hp
    have hne : p ≠ planned.pipeline := fun heq => hp planned (by simp) heq.symm
    exact (htail.untouched p fun other hother => hp other (by simp [hother])).trans
      (hfirst.others p hne)
  have hframe : attempt.state.spec.name = a.spec.name ∧
      attempt.state.spec.description = a.spec.description :=
    ⟨htail.frame.1.trans hfirst.frame.1, htail.frame.2.trans hfirst.frame.2⟩
  have hcount := htail.count
  cases outcome with
  | ok u =>
      obtain ⟨hspec, hunconfirmed⟩ := hfirst.applied rfl
      refine ⟨?_, ?_, hframe, huntouched, ?_, fun f hf => failed_after hfresh hfirst htail hf⟩
      · intro other
        rw [List.mem_cons, htail.reported]
        simp only [Attempt.cons, List.mem_cons, or_assoc]
      · simp only [Attempt.cons, List.length_cons]
        omega
      · intro other hother
        rcases List.mem_cons.1 hother with rfl | hother
        · exact ⟨hownSpec.trans hspec, hownUnconfirmed.trans hunconfirmed⟩
        · exact htail.applied other hother
  | error e =>
      obtain ⟨hspec, hunconfirmed⟩ := hfirst.failed (fun h => by cases h)
      refine ⟨?_, ?_, hframe, huntouched, htail.applied, ?_⟩
      · intro other
        rw [List.mem_cons, htail.reported]
        simp only [Attempt.cons, List.mem_cons, exists_eq_or_imp]
        tauto
      · simp only [Attempt.cons, List.length_cons]
        omega
      · intro f hf
        rcases List.mem_cons.1 hf with rfl | hf
        · exact ⟨hownSpec.trans hspec, fun hne => hownUnconfirmed.trans (hunconfirmed hne)⟩
        · exact failed_after hfresh hfirst htail hf

/-- **What a list of actions does**, as long as it is about each pipeline at most once. -/
theorem Attempt.all_outcome {τ : Type} (answer : (r : Request) → τ → r.Reply × τ)
    (deadline : Span) (w : String) (desired : WorkflowSpec) {actions : List PlannedAction}
    (h : (actions.map (·.pipeline)).Nodup) (a : Applied) (x : τ) :
    Attempt.Outcome desired actions a
      ((Attempt.all deadline w desired actions a).run answer x).1 := by
  induction actions generalizing a x with
  | nil => exact .nil desired a
  | cons planned rest ih =>
      obtain ⟨hfresh, hrest⟩ := List.nodup_cons.1 h
      have hothers : ∀ other ∈ rest, other.pipeline ≠ planned.pipeline := by
        intro other hother heq
        exact hfresh (List.mem_map.2 ⟨other, hother, heq⟩)
      rw [run_all_cons]
      exact Outcome.cons hothers (Applied.effect answer deadline w desired planned a x)
        (ih hrest _ _)

/-! ## The actions of a pass over a manifest -/

/-- What is needed for a pipeline aims at what the manifest says of it. -/
theorem Applied.target_of_needs {a : Applied} {desired : WorkflowSpec} {planned : PlannedAction}
    (h : a.needs desired planned.pipeline = some planned.action) :
    target desired planned = desired.pipelines.get? planned.pipeline := by
  obtain ⟨p, action⟩ := planned
  cases needed h with
  | schedule => rfl
  | update => rfl
  | remove unwanted => exact unwanted.symm

namespace Attempt.Outcome

variable {desired : WorkflowSpec} {a : Applied} {attempt : Attempt}

/-- A pipeline that was applied in a pass over a manifest has the spec of the manifest. -/
theorem get?_of_applied (h : Outcome desired (manifestActions desired a) a attempt)
    {planned : PlannedAction} (hplanned : planned ∈ attempt.applied) :
    attempt.state.spec.pipelines.get? planned.pipeline =
      desired.pipelines.get? planned.pipeline := by
  have hmem := (h.reported planned).2 (.inl hplanned)
  rw [(h.applied planned hplanned).1]
  exact Applied.target_of_needs ((mem_manifestActions_iff desired a planned).1 hmem)

/-- A pipeline that was not applied has the spec that it had. -/
theorem get?_of_not_applied {actions : List PlannedAction} (h : Outcome desired actions a attempt)
    {q : String} (hq : ∀ planned ∈ attempt.applied, planned.pipeline ≠ q) :
    attempt.state.spec.pipelines.get? q = a.spec.pipelines.get? q := by
  by_cases hfailed : ∃ f ∈ attempt.failures, f.pipeline = q
  · obtain ⟨f, hf, rfl⟩ := hfailed
    exact (h.failed f hf).1
  · refine Applied.spec_of_slot (h.untouched q ?_)
    intro planned hplanned heq
    rcases (h.reported planned).1 hplanned with happlied | ⟨f, hf, rfl⟩
    · exact hq planned happlied heq
    · exact hfailed ⟨f, hf, heq⟩

/-- After a pass without failures nothing was needed that was not applied. -/
theorem needs_of_converged (h : Outcome desired (manifestActions desired a) a attempt)
    (hall : attempt.failures = []) {p : String}
    (hp : ∀ planned ∈ attempt.applied, planned.pipeline ≠ p) : a.needs desired p = none := by
  cases hneeds : a.needs desired p with
  | none => rfl
  | some action =>
      have hmem := (mem_manifestActions_iff desired a ⟨p, action⟩).2 hneeds
      rcases (h.reported _).1 hmem with happlied | ⟨f, hf, -⟩
      · exact absurd rfl (hp _ happlied)
      · rw [hall] at hf
        cases hf

/-- **After a pass without failures** the working copy has the pipelines of the manifest. -/
theorem get?_of_converged (h : Outcome desired (manifestActions desired a) a attempt)
    (hall : attempt.failures = []) (p : String) :
    attempt.state.spec.pipelines.get? p = desired.pipelines.get? p := by
  by_cases happlied : ∃ planned ∈ attempt.applied, planned.pipeline = p
  · obtain ⟨planned, hplanned, rfl⟩ := happlied
    exact h.get?_of_applied hplanned
  · have hnot : ∀ planned ∈ attempt.applied, planned.pipeline ≠ p :=
      fun planned hplanned heq => happlied ⟨planned, hplanned, heq⟩
    rw [h.get?_of_not_applied hnot]
    exact (Applied.needs_eq_none_iff.1 (h.needs_of_converged hall hnot)).1

/-- After a pass without failures nothing is unconfirmed. -/
theorem unconfirmed_of_converged (h : Outcome desired (manifestActions desired a) a attempt)
    (hall : attempt.failures = []) (hapart : a.Apart) (p : String) :
    attempt.state.unconfirmed.get? p = none := by
  by_cases happlied : ∃ planned ∈ attempt.applied, planned.pipeline = p
  · obtain ⟨planned, hplanned, rfl⟩ := happlied
    exact (h.applied planned hplanned).2
  · have hnot : ∀ planned ∈ attempt.applied, planned.pipeline ≠ p :=
      fun planned hplanned heq => happlied ⟨planned, hplanned, heq⟩
    have hneeds := h.needs_of_converged hall hnot
    have hsame : attempt.state.unconfirmed.get? p = a.unconfirmed.get? p := by
      refine Applied.unconfirmed_of_slot (h.untouched p fun planned hplanned heq => ?_)
      have hneeded := (mem_manifestActions_iff desired a planned).1 hplanned
      rw [heq, hneeds] at hneeded
      cases hneeded
    rw [hsame]
    cases hu : a.unconfirmed.get? p with
    | none => rfl
    | some u =>
        -- An unconfirmed pipeline is not applied, so it needs a schedule or a removal.
        have hcontains : a.unconfirmed.contains p = true := (KeyMap.contains_iff _ _).2 ⟨u, hu⟩
        have hspec := (KeyMap.contains_eq_false_iff _ _).1 (hapart p hcontains)
        obtain ⟨hdesired, hnone⟩ := Applied.needs_eq_none_iff.1 hneeds
        rw [hnone (hdesired.symm.trans hspec)] at hu
        cases hu

/-- **After a removal without failures** nothing is applied or unconfirmed. -/
theorem cleared {w : String} (h : Outcome (.empty w) (removalActions a) a attempt)
    (hall : attempt.failures = []) (p : String) :
    (attempt.state.slot p).spec = none ∧ (attempt.state.slot p).unconfirmed = none := by
  by_cases happlied : ∃ planned ∈ attempt.applied, planned.pipeline = p
  · obtain ⟨planned, hplanned, rfl⟩ := happlied
    have hremove := ((mem_removalActions_iff _ _).1 ((h.reported planned).2 (.inl hplanned))).1
    obtain ⟨hspec, hunconfirmed⟩ := h.applied planned hplanned
    refine ⟨hspec.trans ?_, hunconfirmed⟩
    simp [Applied.target, hremove]
  · have hnone : ∀ planned ∈ removalActions a, planned.pipeline ≠ p := by
      intro planned hplanned heq
      rcases (h.reported planned).1 hplanned with hdone | ⟨f, hf, -⟩
      · exact happlied ⟨planned, hdone, heq⟩
      · rw [hall] at hf
        cases hf
    rw [h.untouched p hnone]
    have hlacks := mt (mem_removalActions_iff a ⟨p, .remove⟩).2 fun hmem => hnone _ hmem rfl
    simp only [true_and, not_or, Bool.not_eq_true, KeyMap.contains_eq_false_iff] at hlacks
    exact hlacks

end Attempt.Outcome

end FleetControl
