import FleetControl.Proofs.Exchanges
import FleetControl.Proofs.Reconcile.Attempt

/-!
# What an action asks

Everything that an action exchanges with the outside, for any directory, any placement and any replies
of agents. A new pipeline goes back to the executor on record or to the agent that placement chooses;
an update and a removal go to the executor on record. So an action is a few requests about
connections and placement, and then at most one call, and what comes of the action is told by the
reply to it.

* `Scheduler.Placement`, `Scheduler.Choice` — how the agent for a new pipeline is found;
* `Scheduler.Course`, `Scheduler.course_dispatch` — how an action goes;
* `Control.TimedOut`, `Scheduler.Course.of_sent` — what a call that was sent led to;
* `Scheduler.Contacts`, `Scheduler.contacts_iff` — an update or a removal goes to one agent.
-/

namespace FleetControl

/-- No reply came in time, or the agent reports a deadline that passed. -/
def Control.TimedOut (reply : Option (Except AgentError PipelineReport)) : Prop :=
  reply = none ∨ ∃ name deadline, reply = some (.error (.timeout name deadline))

namespace Scheduler

open Control (Calm Opens Sent TimedOut)

/-! ## How the agent for a new pipeline is found -/

/-- The exchanges in which placement chooses an agent, and what comes of them. -/
inductive Placement (w p : String) (spec : PipelineSpec) :
    List Exchange → Except AgentError (String × Connection) → Prop
  /-- No agent can run the pipeline. -/
  | nobody {candidates : List AgentInfo} :
      Placement w p spec [⟨.agents, candidates⟩, ⟨.place spec candidates, none⟩]
        (.error (.noCandidate (w ++ "/" ++ p)))
  /-- The directory does not know the agent. -/
  | unknown {candidates : List AgentInfo} {agent : String} :
      Placement w p spec
        [⟨.agents, candidates⟩, ⟨.place spec candidates, some agent⟩, ⟨.connect agent, none⟩]
        (.error (.unavailable agent))
  | chosen {candidates : List AgentInfo} {agent : String} {connection : Connection} :
      Placement w p spec
        [⟨.agents, candidates⟩, ⟨.place spec candidates, some agent⟩,
          ⟨.connect agent, some connection⟩]
        (.ok (agent, connection))

/-- The exchanges in which the agent for a new pipeline is found, and what comes of them. -/
inductive Choice (w p : String) (spec : PipelineSpec) :
    Option String → List Exchange → Except AgentError (String × Connection) → Prop
  /-- The executor on record is known. -/
  | back {agent : String} {connection : Connection} :
      Choice w p spec (some agent) [⟨.connect agent, some connection⟩] (.ok (agent, connection))
  /-- The executor on record is not known any more. -/
  | lost {agent : String} {log : List Exchange} {found : Except AgentError (String × Connection)}
      (placement : Placement w p spec log found) :
      Choice w p spec (some agent) (⟨.connect agent, none⟩ :: log) found
  /-- There is no executor on record. -/
  | anew {log : List Exchange} {found : Except AgentError (String × Connection)}
      (placement : Placement w p spec log found) : Choice w p spec none log found

section Found

variable {w p : String} {spec : PipelineSpec} {executor : Option String} {log : List Exchange}
variable {found : Except AgentError (String × Connection)}

theorem Placement.calm (h : Placement w p spec log found) : Calm log := by
  cases h with
  | nobody => exact .cons rfl (.cons rfl .nil)
  | unknown => exact .cons rfl (.cons rfl (.cons rfl .nil))
  | chosen => exact .cons rfl (.cons rfl (.cons rfl .nil))

theorem Choice.calm (h : Choice w p spec executor log found) : Calm log := by
  cases h with
  | back => exact .cons rfl .nil
  | lost placement => exact .cons rfl placement.calm
  | anew placement => exact placement.calm

/-- The last that was asked for is the connection to the agent that is found. -/
theorem Choice.connected {agent : String} {connection : Connection}
    (h : Choice w p spec executor log (.ok (agent, connection))) :
    ∃ before, Calm before ∧ log = before ++ [⟨.connect agent, some connection⟩] := by
  have hplaced : ∀ log, Placement w p spec log (.ok (agent, connection)) →
      ∃ before, Calm before ∧ log = before ++ [⟨.connect agent, some connection⟩] := by
    intro log h
    cases h with
    | chosen => exact ⟨[_, _], .cons rfl (.cons rfl .nil), rfl⟩
  cases h with
  | back => exact ⟨[], .nil, rfl⟩
  | lost placement =>
      obtain ⟨before, hcalm, rfl⟩ := hplaced _ placement
      exact ⟨_ :: before, .cons rfl hcalm, rfl⟩
  | anew placement => exact hplaced _ placement

/-- A call that follows goes to the agent that is found, and to nobody else. -/
theorem Choice.sent_iff {name : String} {connection : Connection}
    (h : Choice w p spec executor log (.ok (name, connection))) {deadline : Span}
    {action : PipelineAction} {request : PipelineRequest}
    {reply : Option (Except AgentError PipelineReport)} {agent : String} {sent : PipelineAction}
    {request' : PipelineRequest} {reply' : Option (Except AgentError PipelineReport)} :
    Sent (log ++ [⟨.call connection deadline action request, reply⟩]) agent sent request' reply' ↔
      agent = name ∧ sent = action ∧ request' = request ∧ reply' = reply := by
  obtain ⟨before, hcalm, rfl⟩ := h.connected
  rw [List.append_assoc]
  exact Control.sent_single_iff hcalm

end Found

section Choosing

variable {τ : Type} (answer : (r : Request) → τ → r.Reply × τ) (w p : String)
variable (spec : PipelineSpec) (status : PipelineStatus) (x : τ)

theorem placement_placeAnew : Placement w p spec
    ((placeAnew w p spec).exchanges (Program.always answer) x)
    ((placeAnew w p spec).run answer x).1 := by
  unfold placeAnew
  rw [Program.exchanges_bind_always, Program.run_bind', Control.exchanges_agents,
    Control.run_agents]
  generalize answer .agents x = found
  rw [Program.exchanges_bind_always, Program.run_bind', Control.exchanges_place, Control.run_place]
  generalize answer (.place spec found.1) found.2 = choice
  obtain ⟨_ | agent, x₁⟩ := choice
  · exact .nobody
  · simp only
    rw [Program.exchanges_bind_always, Program.run_bind', Control.exchanges_connect,
      Control.run_connect]
    generalize answer (.connect agent) x₁ = connected
    obtain ⟨_ | connection, x₂⟩ := connected
    · exact .unknown
    · exact .chosen

theorem choice_chooseAgent : Choice w p spec status.executor
    ((chooseAgent w p spec status).exchanges (Program.always answer) x)
    ((chooseAgent w p spec status).run answer x).1 := by
  rw [chooseAgent_eq]
  cases status.executor with
  | none => exact .anew (placement_placeAnew answer w p spec x)
  | some agent =>
      simp only
      rw [Program.exchanges_bind_always, Program.run_bind', Control.exchanges_connect,
        Control.run_connect]
      generalize answer (.connect agent) x = connected
      obtain ⟨_ | connection, x₁⟩ := connected
      · exact .lost (placement_placeAnew answer w p spec x₁)
      · exact .back

end Choosing

/-! ## How an action goes -/

/-- An action places its pipeline: a schedule, and an update of a pipeline that has no executor. -/
def Places (action : PipelineAction) (status : PipelineStatus) : Prop :=
  action = .schedule ∨ action = .update ∧ status.executor = none

/-- The exchanges of an action, and what comes of it. -/
inductive Course (deadline : Span) (action : PipelineAction) (w p : String) (spec : PipelineSpec)
    (status : PipelineStatus) : List Exchange → Result → Prop
  /-- No agent is found for a new pipeline. -/
  | unplaced {log : List Exchange} {e : AgentError} (places : Places action status)
      (choice : Choice w p spec status.executor log (.error e)) :
      Course deadline action w p spec status log (.error e, status)
  /-- The agent that is found is called. -/
  | placed {log : List Exchange} {agent : String} {connection : Connection}
      {reply : Option (Except AgentError PipelineReport)} (places : Places action status)
      (choice : Choice w p spec status.executor log (.ok (agent, connection))) :
      Course deadline action w p spec status
        (log ++ [⟨.call connection deadline .schedule (request w p spec), reply⟩])
        (Scheduler.placed status agent (answered agent deadline reply))
  /-- The executor on record is not known. -/
  | unknown {agent : String} (act : action ≠ .schedule) (executor : status.executor = some agent) :
      Course deadline action w p spec status [⟨.connect agent, none⟩]
        (.error (.unavailable agent), status)
  /-- The executor on record is called. -/
  | told {agent : String} {connection : Connection}
      {reply : Option (Except AgentError PipelineReport)} (act : action ≠ .schedule)
      (executor : status.executor = some agent) :
      Course deadline action w p spec status
        [⟨.connect agent, some connection⟩,
          ⟨.call connection deadline action (request w p spec), reply⟩]
        (concluded status (answered agent deadline reply))
  /-- A pipeline without an executor is removed. -/
  | idle (act : action = .remove) (executor : status.executor = none) :
      Course deadline action w p spec status [] (.ok (), status)

section Dispatch

variable {τ : Type} (answer : (r : Request) → τ → r.Reply × τ) (deadline : Span)
variable {action : PipelineAction} (w p : String) (spec : PipelineSpec) {status : PipelineStatus}
variable (x : τ)

theorem course_schedule (places : Places action status) : Course deadline action w p spec status
    ((schedule deadline w p spec status).exchanges (Program.always answer) x)
    ((schedule deadline w p spec status).run answer x).1 := by
  have hchoice := choice_chooseAgent answer w p spec status x
  rw [schedule_eq, Program.exchanges_bind_always, Program.run_bind']
  generalize (chooseAgent w p spec status).exchanges (Program.always answer) x = log at hchoice ⊢
  generalize (chooseAgent w p spec status).run answer x = chosen at hchoice ⊢
  obtain ⟨e | ⟨agent, connection⟩, x₁⟩ := chosen
  · exact (List.append_nil log).symm ▸ .unplaced places hchoice
  · exact .placed places hchoice

theorem course_callExecutor (act : action ≠ .schedule) {agent : String}
    (executor : status.executor = some agent) : Course deadline action w p spec status
    ((callExecutor deadline action w p spec status agent).exchanges (Program.always answer) x)
    ((callExecutor deadline action w p spec status agent).run answer x).1 := by
  rw [callExecutor_eq, Program.exchanges_bind_always, Program.run_bind', Control.exchanges_connect,
    Control.run_connect]
  generalize answer (.connect agent) x = connected
  obtain ⟨_ | connection, x₁⟩ := connected
  · exact .unknown act executor
  · exact .told act executor

/-- **How an action goes**, whatever is replied. -/
theorem course_dispatch : Course deadline action w p spec status
    ((dispatch deadline action w p spec status).exchanges (Program.always answer) x)
    ((dispatch deadline action w p spec status).run answer x).1 := by
  cases hexecutor : status.executor with
  | some agent =>
      by_cases act : action = .schedule
      · subst act
        exact course_schedule answer deadline w p spec x (.inl rfl)
      · rw [dispatch_of_executor deadline act w p spec hexecutor]
        exact course_callExecutor answer deadline w p spec x act hexecutor
  | none =>
      cases action with
      | schedule => exact course_schedule answer deadline w p spec x (.inl rfl)
      | update =>
          simp only [dispatch, update, hexecutor]
          exact course_schedule answer deadline w p spec x (.inr ⟨rfl, hexecutor⟩)
      | remove =>
          simp only [dispatch, remove, hexecutor]
          exact .idle rfl hexecutor

end Dispatch

/-! ## What the reply comes to -/

theorem answered_eq_ok_iff {α : Type} {agent : String} {deadline : Span}
    {reply : Option (Except AgentError α)} {a : α} :
    answered agent deadline reply = .ok a ↔ reply = some (.ok a) := by
  cases reply <;> simp [answered]

theorem placed_ok_iff {status : PipelineStatus} {agent : String}
    {reply : Except AgentError PipelineReport} :
    (Scheduler.placed status agent reply).1 = .ok () ↔ ∃ report, reply = .ok report := by
  rcases reply with e | report
  · cases e <;> simp [Scheduler.placed]
  · simp [Scheduler.placed]

theorem concluded_ok_iff {status : PipelineStatus} {reply : Except AgentError PipelineReport} :
    (concluded status reply).1 = .ok () ↔ ∃ report, reply = .ok report := by
  cases reply <;> simp [concluded]

/-- A schedule call that timed out is a failure, and the status names the agent that was called. -/
theorem placed_of_timed_out {reply : Option (Except AgentError PipelineReport)}
    (h : TimedOut reply) (status : PipelineStatus) (agent : String) (deadline : Span) :
    ∃ e, Scheduler.placed status agent (answered agent deadline reply) =
      (.error e, status.attempted agent) := by
  rcases h with rfl | ⟨name, deadline', rfl⟩
  · exact ⟨_, rfl⟩
  · exact ⟨_, rfl⟩

namespace Course

variable {deadline : Span} {action : PipelineAction} {w p : String} {spec : PipelineSpec}
variable {status : PipelineStatus} {log : List Exchange} {result : Result}

/-- An action does not begin with a call. -/
theorem opens (h : Course deadline action w p spec status log result) : Opens log := by
  cases h with
  | unplaced _ choice => exact choice.calm.opens
  | @placed log agent connection reply _ choice =>
      obtain ⟨before, hcalm, rfl⟩ := choice.connected
      rw [List.append_assoc]
      refine hcalm.opens.append ?_
      rintro e rest heq
      obtain ⟨rfl, -⟩ := List.cons.inj heq
      rfl
  | unknown => exact (Calm.cons rfl .nil).opens
  | told =>
      rintro e rest heq
      obtain ⟨rfl, -⟩ := List.cons.inj heq
      rfl
  | idle => exact Calm.nil.opens

/-- **What a call that was sent led to.** -/
theorem of_sent (h : Course deadline action w p spec status log result) {agent : String}
    {sent : PipelineAction} {request : PipelineRequest}
    {reply : Option (Except AgentError PipelineReport)}
    (hsent : Sent log agent sent request reply) : request = Scheduler.request w p spec ∧
      ((sent = .schedule ∧ Places action status ∧
          result = Scheduler.placed status agent (answered agent deadline reply)) ∨
        (sent = action ∧ action ≠ .schedule ∧ status.executor = some agent ∧
          result = concluded status (answered agent deadline reply))) := by
  cases h with
  | unplaced _ choice => exact absurd hsent choice.calm.not_sent
  | placed places choice =>
      obtain ⟨rfl, rfl, rfl, rfl⟩ := choice.sent_iff.1 hsent
      exact ⟨rfl, .inl ⟨rfl, places, rfl⟩⟩
  | unknown => exact absurd hsent (Calm.cons rfl .nil).not_sent
  | told act executor =>
      obtain ⟨rfl, rfl, rfl, rfl⟩ := (Control.sent_single_iff .nil).1 hsent
      exact ⟨rfl, .inr ⟨rfl, act, executor, rfl⟩⟩
  | idle => exact absurd hsent Calm.nil.not_sent

/-- **An action succeeds** if the agent that is called accepts, or if there is nothing to remove. -/
theorem ok_iff (h : Course deadline action w p spec status log result) :
    result.1 = .ok () ↔ (action = .remove ∧ status.executor = none) ∨
      ∃ agent sent report, Sent log agent sent (request w p spec) (some (.ok report)) := by
  constructor
  · intro hok
    cases h with
    | unplaced => cases hok
    | @placed _ agent connection reply _ choice =>
        obtain ⟨report, hreport⟩ := placed_ok_iff.1 hok
        refine .inr ⟨agent, .schedule, report, ?_⟩
        exact choice.sent_iff.2 ⟨rfl, rfl, rfl, (answered_eq_ok_iff.1 hreport).symm⟩
    | unknown => cases hok
    | @told agent connection reply =>
        obtain ⟨report, hreport⟩ := concluded_ok_iff.1 hok
        refine .inr ⟨agent, action, report, ?_⟩
        exact (Control.sent_single_iff .nil).2 ⟨rfl, rfl, rfl, (answered_eq_ok_iff.1 hreport).symm⟩
    | idle act executor => exact .inl ⟨act, executor⟩
  · rintro (⟨rfl, hnone⟩ | ⟨agent, sent, report, hsent⟩)
    · cases h with
      | unplaced places | placed places => rcases places with hact | ⟨hact, -⟩ <;> cases hact
      | unknown _ executor | told _ executor =>
          rw [hnone] at executor
          cases executor
      | idle => rfl
    · obtain ⟨-, ⟨-, -, rfl⟩ | ⟨-, -, -, rfl⟩⟩ := h.of_sent hsent
      · exact placed_ok_iff.2 ⟨report, rfl⟩
      · exact concluded_ok_iff.2 ⟨report, rfl⟩

end Course

/-! ## Updates and removals -/

/-- The agent of a name is asked for and, if the directory knows it, called about a pipeline; nobody
else is. -/
inductive Contacts (agent : String) (action : PipelineAction) (request : PipelineRequest) :
    List Exchange → Prop
  | unknown : Contacts agent action request [⟨.connect agent, none⟩]
  | called {connection : Connection} {deadline : Span}
      {reply : Option (Except AgentError PipelineReport)} :
      Contacts agent action request
        [⟨.connect agent, some connection⟩, ⟨.call connection deadline action request, reply⟩]

/-- **An update or a removal goes to the executor on record**, and only to that. -/
theorem contacts_iff {τ : Type} (answer : (r : Request) → τ → r.Reply × τ) (deadline : Span)
    {action : PipelineAction} (act : action ≠ .schedule) (w p : String) (spec : PipelineSpec)
    (status : PipelineStatus) (x : τ) (agent : String) :
    Contacts agent action (request w p spec)
      ((dispatch deadline action w p spec status).exchanges (Program.always answer) x) ↔
        status.executor = some agent := by
  have hcourse : Course deadline action w p spec status _ _ :=
    course_dispatch answer deadline w p spec x
  generalize (dispatch deadline action w p spec status).exchanges (Program.always answer) x = log
    at hcourse ⊢
  generalize ((dispatch deadline action w p spec status).run answer x).1 = result at hcourse
  -- Without an executor on record placement is asked first.
  have hagents : ∀ log found, Places action status → Choice w p spec status.executor log found →
      ∃ candidates rest, log = ⟨.agents, candidates⟩ :: rest := by
    intro log found places choice
    rw [(places.resolve_left act).2] at choice
    cases choice with
    | anew placement => cases placement <;> exact ⟨_, _, rfl⟩
  constructor
  · intro hcontacts
    cases hcourse with
    | unplaced places choice | placed places choice =>
        obtain ⟨candidates, rest, rfl⟩ := hagents _ _ places choice
        cases hcontacts
    | unknown _ executor =>
        cases hcontacts
        exact executor
    | told _ executor =>
        cases hcontacts
        exact executor
    | idle => cases hcontacts
  · intro hexecutor
    cases hcourse with
    | unplaced places | placed places =>
        rw [(places.resolve_left act).2] at hexecutor
        cases hexecutor
    | unknown _ executor =>
        obtain rfl := Option.some.inj (executor.symm.trans hexecutor)
        exact .unknown
    | told _ executor =>
        obtain rfl := Option.some.inj (executor.symm.trans hexecutor)
        exact .called
    | idle _ executor =>
        rw [executor] at hexecutor
        cases hexecutor

end Scheduler

end FleetControl
