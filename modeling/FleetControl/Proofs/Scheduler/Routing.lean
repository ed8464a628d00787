import FleetControl.Proofs.Scheduler.Course

/-!
# Where an action goes, and what it leaves

An action makes at most one call. With an executor on record that the directory knows, the call goes
there and nothing else is asked for. If the directory does not know it, an update and a removal fail
at once, and a schedule goes where placement chooses. Without an executor a schedule and an update go
where placement chooses, and a removal has nothing to do.

What is kept is told by the reply. An accepted call replaces what the agent reported, and a failure
changes nothing, apart from a schedule call that timed out: the agent may have the pipeline.

* `Scheduler.PlacedAnew` — a pipeline goes where placement chooses;
* `Scheduler.Routed`, `Scheduler.Framed` — where an action goes, and what it leaves;
* `Scheduler.dispatch_routed_framed` — so do all actions, whatever is replied.
-/

namespace FleetControl

namespace Scheduler

open Control (Calm Sent TimedOut)

/-! ## Routes -/

/-- The exchanges in which a pipeline goes where placement chooses: nobody but the candidate that is
chosen is looked up and called. -/
inductive PlacedAnew (deadline : Span) (w p : String) (spec : PipelineSpec) : List Exchange → Prop
  | nobody {candidates : List AgentInfo} :
      PlacedAnew deadline w p spec [⟨.agents, candidates⟩, ⟨.place spec candidates, none⟩]
  | unknown {candidates : List AgentInfo} {agent : String} :
      PlacedAnew deadline w p spec
        [⟨.agents, candidates⟩, ⟨.place spec candidates, some agent⟩, ⟨.connect agent, none⟩]
  | called {candidates : List AgentInfo} {agent : String} {connection : Connection}
      {reply : Option (Except AgentError PipelineReport)} :
      PlacedAnew deadline w p spec
        [⟨.agents, candidates⟩, ⟨.place spec candidates, some agent⟩,
          ⟨.connect agent, some connection⟩,
          ⟨.call connection deadline .schedule (request w p spec), reply⟩]

/-- How many calls about pipelines there are. -/
def callCount (log : List Exchange) : Nat := log.countP fun e => e.1.isCall

section Routes

variable {deadline : Span} {action : PipelineAction} {w p : String} {spec : PipelineSpec}
variable {status : PipelineStatus} {log : List Exchange} {result : Result}

theorem PlacedAnew.callCount_le (h : PlacedAnew deadline w p spec log) : callCount log ≤ 1 := by
  cases h <;> simp [callCount, Request.isCall]

/-- The candidate that is found is called. -/
theorem Placement.placedAnew {agent : String} {connection : Connection}
    (h : Placement w p spec log (.ok (agent, connection)))
    (reply : Option (Except AgentError PipelineReport)) : PlacedAnew deadline w p spec
      (log ++ [⟨.call connection deadline .schedule (request w p spec), reply⟩]) := by
  cases h with
  | chosen => exact .called

/-- Nobody is called if no candidate is found. -/
theorem Placement.placedAnew_of_error {e : AgentError} (h : Placement w p spec log (.error e)) :
    PlacedAnew deadline w p spec log := by
  cases h with
  | nobody => exact .nobody
  | unknown => exact .unknown

/-- **With an executor on record** the action calls it, or the directory does not know it. -/
theorem Course.of_executor (h : Course deadline action w p spec status log result) {agent : String}
    (executor : status.executor = some agent) :
    (∃ connection reply, log = [⟨.connect agent, some connection⟩,
      ⟨.call connection deadline action (request w p spec), reply⟩]) ∨
    ∃ rest, log = ⟨.connect agent, none⟩ :: rest ∧
      ((action = .schedule ∧ PlacedAnew deadline w p spec rest) ∨
        (action ≠ .schedule ∧ rest = [] ∧ result = (.error (.unavailable agent), status))) := by
  have hplaces : Places action status → action = .schedule := fun places =>
    places.resolve_right fun ⟨_, hnone⟩ => by
      rw [executor] at hnone
      cases hnone
  cases h with
  | unplaced places choice =>
      rw [executor] at choice
      cases choice with
      | lost placement =>
          exact .inr ⟨_, rfl, .inl ⟨hplaces places, placement.placedAnew_of_error⟩⟩
  | placed places choice =>
      obtain rfl := hplaces places
      rw [executor] at choice
      cases choice with
      | back => exact .inl ⟨_, _, rfl⟩
      | lost placement => exact .inr ⟨_, rfl, .inl ⟨rfl, placement.placedAnew _⟩⟩
  | unknown act executor' =>
      obtain rfl := Option.some.inj (executor'.symm.trans executor)
      exact .inr ⟨_, rfl, .inr ⟨act, rfl, rfl⟩⟩
  | told act executor' =>
      obtain rfl := Option.some.inj (executor'.symm.trans executor)
      exact .inl ⟨_, _, rfl⟩
  | idle _ hnone =>
      rw [executor] at hnone
      cases hnone

/-- **Without an executor on record** the pipeline is placed, or there is nothing to remove. -/
theorem Course.of_nobody (h : Course deadline action w p spec status log result)
    (executor : status.executor = none) :
    (action ≠ .remove ∧ PlacedAnew deadline w p spec log) ∨
      (action = .remove ∧ log = [] ∧ result = (.ok (), status)) := by
  have hplaces : Places action status → action ≠ .remove := by
    rintro (rfl | ⟨rfl, -⟩) <;> exact PipelineAction.noConfusion
  cases h with
  | unplaced places choice =>
      rw [executor] at choice
      cases choice with
      | anew placement => exact .inl ⟨hplaces places, placement.placedAnew_of_error⟩
  | placed places choice =>
      rw [executor] at choice
      cases choice with
      | anew placement => exact .inl ⟨hplaces places, placement.placedAnew _⟩
  | unknown _ hsome | told _ hsome =>
      rw [executor] at hsome
      cases hsome
  | idle act => exact .inr ⟨act, rfl, rfl⟩

/-- At most one call is made. -/
theorem Course.callCount_le (h : Course deadline action w p spec status log result) :
    callCount log ≤ 1 := by
  cases hexecutor : status.executor with
  | some agent =>
      rcases h.of_executor hexecutor with ⟨connection, reply, rfl⟩ | ⟨rest, rfl, hrest⟩
      · simp [callCount, Request.isCall]
      · have hrest : callCount rest ≤ 1 := by
          rcases hrest with ⟨-, hplaced⟩ | ⟨-, rfl, -⟩
          · exact hplaced.callCount_le
          · exact Nat.zero_le 1
        simpa [callCount, Request.isCall] using hrest
  | none =>
      rcases h.of_nobody hexecutor with ⟨-, hplaced⟩ | ⟨-, rfl, -⟩
      · exact hplaced.callCount_le
      · exact Nat.zero_le 1

/-- Where an action goes, given the connections that the directory knows when it begins. -/
structure Routed (deadline : Span) (action : PipelineAction) (w p : String) (spec : PipelineSpec)
    (status : PipelineStatus) (known : String → Option Connection) (log : List Exchange)
    (result : Result) : Prop where
  once : callCount log ≤ 1
  /-- To the executor on record, without a word to anybody else. -/
  executor : ∀ agent connection, status.executor = some agent → known agent = some connection →
    ∃ reply, log = [⟨.connect agent, some connection⟩,
      ⟨.call connection deadline action (request w p spec), reply⟩]
  /-- Nowhere, if an update or a removal should go to an executor that is not known. -/
  unknown : ∀ agent, status.executor = some agent → known agent = none → action ≠ .schedule →
    log = [⟨.connect agent, none⟩] ∧ result = (.error (.unavailable agent), status)
  /-- Where placement chooses, if a schedule should go to an executor that is not known. -/
  lost : ∀ agent, status.executor = some agent → known agent = none → action = .schedule →
    ∃ rest, log = ⟨.connect agent, none⟩ :: rest ∧ PlacedAnew deadline w p spec rest
  /-- Where placement chooses, if there is no executor on record. -/
  anew : status.executor = none → action ≠ .remove → PlacedAnew deadline w p spec log
  idle : status.executor = none → action = .remove → log = [] ∧ result = (.ok (), status)

/-- What an action leaves. -/
structure Framed (action : PipelineAction) (w p : String) (spec : PipelineSpec)
    (status : PipelineStatus) (log : List Exchange) (result : Result) : Prop where
  /-- It succeeds if a call is accepted, or if there is nothing to remove. -/
  ok_iff : result.1 = .ok () ↔ (action = .remove ∧ status.executor = none) ∨
    ∃ agent sent report, Sent log agent sent (request w p spec) (some (.ok report))
  /-- What the report leaves empty stays as it was. -/
  accepted : ∀ agent sent report, Sent log agent sent (request w p spec) (some (.ok report)) →
    result.2 =
      ⟨if report.executor = "" then status.executor else some report.executor,
        if report.status = "" then status.status else report.status,
        if report.lastRun = none then status.lastRun else report.lastRun⟩
  /-- The agent of a schedule call that timed out is on record. -/
  timedOut : ∀ agent reply, Sent log agent .schedule (request w p spec) reply → TimedOut reply →
    (∃ e, result.1 = .error e) ∧ result.2 = ⟨some agent, "unknown", status.lastRun⟩
  /-- No other failure changes anything. -/
  kept : ∀ e, result.1 = .error e →
    (∀ agent reply, Sent log agent .schedule (request w p spec) reply → ¬ TimedOut reply) →
      result.2 = status

/-- A report replaces what it names. -/
theorem overlay_eq (status : PipelineStatus) (report : PipelineReport) : status.overlay report =
    ⟨if report.executor = "" then status.executor else some report.executor,
      if report.status = "" then status.status else report.status,
      if report.lastRun = none then status.lastRun else report.lastRun⟩ := by
  simp only [PipelineStatus.overlay, String.isEmpty_iff]
  cases report.lastRun <;> rfl

/-- A schedule call that failed in time changes nothing. -/
theorem placed_of_in_time {reply : Option (Except AgentError PipelineReport)} {agent : String}
    {e : AgentError} (h : (Scheduler.placed status agent (answered agent deadline reply)).1 = .error e)
    (hintime : ¬ TimedOut reply) :
    (Scheduler.placed status agent (answered agent deadline reply)).2 = status := by
  rcases reply with _ | e' | report
  · exact absurd (.inl rfl) hintime
  · cases e' with
    | timeout name deadline' => exact absurd (.inr ⟨_, _, rfl⟩) hintime
    | _ => rfl
  · cases h

theorem Course.framed (h : Course deadline action w p spec status log result) :
    Framed action w p spec status log result := by
  refine ⟨h.ok_iff, fun agent sent report hsent => ?_, fun agent reply hsent htimedOut => ?_,
    fun e herror hintime => ?_⟩
  · rw [← overlay_eq]
    obtain ⟨-, ⟨-, -, rfl⟩ | ⟨-, -, -, rfl⟩⟩ := h.of_sent hsent <;> rfl
  · obtain ⟨-, ⟨-, -, hresult⟩ | ⟨hsame, hact, -⟩⟩ := h.of_sent hsent
    · obtain ⟨e, hplaced⟩ := placed_of_timed_out htimedOut status agent deadline
      rw [hresult, hplaced]
      exact ⟨⟨e, rfl⟩, rfl⟩
    · exact absurd hsame.symm hact
  · cases h with
    | unplaced | unknown => rfl
    | placed places choice =>
        exact placed_of_in_time herror (hintime _ _ (choice.sent_iff.2 ⟨rfl, rfl, rfl, rfl⟩))
    | @told agent connection reply =>
        rcases reply with _ | e' | report
        · rfl
        · rfl
        · cases herror
    | idle => cases herror

end Routes

section Dispatch

variable {τ : Type} (answer : (r : Request) → τ → r.Reply × τ) (deadline : Span)
variable (action : PipelineAction) (w p : String) (spec : PipelineSpec) {status : PipelineStatus}
variable (x : τ)

/-- An action asks for the executor on record first. -/
theorem connect_first {agent : String} (executor : status.executor = some agent) :
    ∃ rest, (dispatch deadline action w p spec status).exchanges (Program.always answer) x =
      ⟨.connect agent, (answer (.connect agent) x).1⟩ :: rest := by
  by_cases act : action = .schedule
  · subst act
    change ∃ rest, (schedule deadline w p spec status).exchanges _ x = _
    rw [schedule_eq, Program.exchanges_bind_always, chooseAgent_eq, executor]
    simp only
    rw [Program.exchanges_bind_always, Control.exchanges_connect]
    exact ⟨_, rfl⟩
  · rw [dispatch_of_executor deadline act w p spec executor, callExecutor_eq,
      Program.exchanges_bind_always, Control.exchanges_connect]
    exact ⟨_, rfl⟩

/-- An executor on record that the directory does not know is passed by. -/
theorem exchanges_of_unknown {agent : String} (executor : status.executor = some agent)
    (unknown : (answer (.connect agent) x).1 = none) :
    let result := ((dispatch deadline action w p spec status).run answer x).1
    ∃ rest, (dispatch deadline action w p spec status).exchanges (Program.always answer) x =
        ⟨.connect agent, none⟩ :: rest ∧
      ((action = .schedule ∧ PlacedAnew deadline w p spec rest) ∨
        (action ≠ .schedule ∧ rest = [] ∧ result = (.error (.unavailable agent), status))) := by
  obtain ⟨more, hfirst⟩ := connect_first answer deadline action w p spec x executor
  rcases (course_dispatch answer deadline w p spec x).of_executor executor with
    ⟨connection, reply, hlog⟩ | hpassed
  · rw [hlog, unknown] at hfirst
    cases hfirst
  · exact hpassed

/-- **Where an action goes**, for every directory, placement and agent. -/
theorem routed (status : PipelineStatus) :
    Routed deadline action w p spec status (fun agent => (answer (.connect agent) x).1)
      ((dispatch deadline action w p spec status).exchanges (Program.always answer) x)
      ((dispatch deadline action w p spec status).run answer x).1 := by
  have hcourse : Course deadline action w p spec status _ _ :=
    course_dispatch answer deadline w p spec x
  refine ⟨hcourse.callCount_le, fun agent connection executor known => ?_,
    fun agent executor unknown act => ?_, fun agent executor unknown act => ?_,
    fun executor act => ?_, fun executor act => ?_⟩
  · obtain ⟨more, hfirst⟩ := connect_first answer deadline action w p spec x executor
    rcases hcourse.of_executor executor with ⟨connection', reply, hlog⟩ | ⟨rest, hlog, -⟩
    · rw [hlog, known] at hfirst
      cases hfirst
      exact ⟨reply, hlog⟩
    · rw [hlog, known] at hfirst
      cases hfirst
  · obtain ⟨rest, hlog, ⟨hact, -⟩ | ⟨-, rfl, hresult⟩⟩ :=
      exchanges_of_unknown answer deadline action w p spec x executor unknown
    · exact absurd hact act
    · exact ⟨hlog, hresult⟩
  · obtain ⟨rest, hlog, ⟨-, hplaced⟩ | ⟨hact, -⟩⟩ :=
      exchanges_of_unknown answer deadline action w p spec x executor unknown
    · exact ⟨rest, hlog, hplaced⟩
    · exact absurd act hact
  · rcases hcourse.of_nobody executor with ⟨-, hplaced⟩ | ⟨hact, -⟩
    · exact hplaced
    · exact absurd hact act
  · rcases hcourse.of_nobody executor with ⟨hact, -⟩ | ⟨-, hnothing⟩
    · exact absurd act hact
    · exact hnothing

/-- **Where an action goes, and what it leaves.** Take any action, spec and prior status, any directory
and placement, and any replies of agents. At most one call is made, and to whom is told by the
executor on record and by whether the directory knows it. A failure changes nothing, apart from a
schedule call that timed out, and a success changes what the agent reported. -/
theorem dispatch_routed_framed (status : PipelineStatus) :
    let result := ((dispatch deadline action w p spec status).run answer x).1
    let log := (dispatch deadline action w p spec status).exchanges (Program.always answer) x
    Routed deadline action w p spec status (fun agent => (answer (.connect agent) x).1) log result ∧
      Framed action w p spec status log result :=
  ⟨routed answer deadline action w p spec x status,
    (course_dispatch answer deadline w p spec x).framed⟩

end Dispatch

/-- The executor on record is gone. The pipeline goes where placement chooses, the call times out, and
the agent that was called is on record with the last run of before. -/
theorem lost_executor_replaced :
    let answer : (r : Request) → Unit → r.Reply × Unit := fun r x => match r with
      | .clock => (⟨0, false⟩, x)
      | .store _ => (.error .database, x)
      | .agents => ([⟨"agent-b", .empty⟩], x)
      | .connect agent => (if agent = "agent-b" then some ⟨1⟩ else none, x)
      | .place _ _ => (some "agent-b", x)
      | .call _ _ _ _ | .health _ _ => (none, x)
    let status : PipelineStatus := ⟨some "agent-a", "running", some ⟨7, false⟩⟩
    let result := ((dispatch .zero .schedule "wf1" "p1" .empty status).run answer ()).1
    let log := (dispatch .zero .schedule "wf1" "p1" .empty status).exchanges
      (Program.always answer) ()
    (∃ rest, log = ⟨.connect "agent-a", none⟩ :: rest ∧
      PlacedAnew .zero "wf1" "p1" .empty rest) ∧
        result.2 = ⟨some "agent-b", "unknown", some ⟨7, false⟩⟩ := by
  intro answer status result log
  obtain ⟨hrouted, hframed⟩ :=
    dispatch_routed_framed answer .zero .schedule "wf1" "p1" .empty () status
  have hsent : Sent log "agent-b" .schedule (request "wf1" "p1" .empty) none :=
    ⟨⟨1⟩, .zero, [_, _, _], [], rfl⟩
  exact ⟨hrouted.lost "agent-a" rfl rfl rfl, (hframed.timedOut _ _ hsent (.inl rfl)).2⟩

end Scheduler

end FleetControl
