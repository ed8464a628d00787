import FleetControl.Request

/-!
# Scheduling

One action for one pipeline, as at most one call to one agent. An update or a removal goes to the
agent that the pipeline's status names; a new pipeline goes to the agent that an earlier schedule
call left there, as long as the directory knows it, and else to the agent that placement chooses.

The status is what the caller keeps. It changes when a call succeeds, by what the agent reported,
and when a schedule call gets no answer in time: the agent may have accepted the pipeline, so it is
remembered as the executor. No other failure changes it.
-/

namespace FleetControl

/-- The deadline of an agent call unless something else is asked for. -/
def defaultDispatchTimeout : Span := .ofSeconds 30

namespace PipelineStatus

/-- Take over what an agent reported; what it left empty stays as it was. -/
def overlay (s : PipelineStatus) (r : PipelineReport) : PipelineStatus :=
  { executor := if r.executor.isEmpty then s.executor else some r.executor
    status := if r.status.isEmpty then s.status else r.status
    lastRun := r.lastRun <|> s.lastRun }

/-- The status after a schedule call without an answer. -/
def attempted (s : PipelineStatus) (agent : String) : PipelineStatus :=
  { s with executor := some agent, status := unknownStatus }

end PipelineStatus

namespace Scheduler

/-- The request that an agent receives about a pipeline. -/
def request (workflow pipeline : String) (spec : PipelineSpec) : PipelineRequest :=
  ⟨workflow, pipeline, spec.fingerprint⟩

/-- The outcome of a call: without a reply before the deadline it is a timeout. -/
def answered {α : Type} (agent : String) (deadline : Span) :
    Option (Except AgentError α) → Except AgentError α
  | some reply => reply
  | none => .error (.timeout agent deadline)

/-- What comes of an action: success or an error, and the status that is kept. -/
abbrev Result := Except AgentError Unit × PipelineStatus

/-- The agent that a new pipeline goes to. -/
def chooseAgent (workflow pipeline : String) (spec : PipelineSpec) (status : PipelineStatus) :
    Control (Except AgentError (String × Connection)) := do
  let previous ←
    match status.executor with
    | none => pure none
    | some agent => do
      let found ← Control.connect agent
      pure (found.map fun connection => (agent, connection))
  match previous with
  | some found => pure (.ok found)
  | none => do
    let candidates ← Control.agents
    match ← Control.place spec candidates with
    | none => pure (.error (.noCandidate (workflow ++ "/" ++ pipeline)))
    | some agent =>
      match ← Control.connect agent with
      | none => pure (.error (.unavailable agent))
      | some connection => pure (.ok (agent, connection))

/-- Place a pipeline on an agent. -/
def schedule (deadline : Span) (workflow pipeline : String) (spec : PipelineSpec)
    (status : PipelineStatus) : Control Result := do
  match ← chooseAgent workflow pipeline spec status with
  | .error e => pure (.error e, status)
  | .ok (agent, connection) =>
    let reply ← Control.call connection deadline .schedule (request workflow pipeline spec)
    match answered agent deadline reply with
    | .ok report => pure (.ok (), status.overlay report)
    | .error (.timeout a d) => pure (.error (.timeout a d), status.attempted agent)
    | .error e => pure (.error e, status)

/-- Call the agent that a status names. -/
def callExecutor (deadline : Span) (action : PipelineAction) (workflow pipeline : String)
    (spec : PipelineSpec) (status : PipelineStatus) (agent : String) : Control Result := do
  match ← Control.connect agent with
  | none => pure (.error (.unavailable agent), status)
  | some connection =>
    let reply ← Control.call connection deadline action (request workflow pipeline spec)
    match answered agent deadline reply with
    | .ok report => pure (.ok (), status.overlay report)
    | .error e => pure (.error e, status)

/-- Send a new spec to the agent that runs a pipeline; one that was never placed is placed. -/
def update (deadline : Span) (workflow pipeline : String) (spec : PipelineSpec)
    (status : PipelineStatus) : Control Result :=
  match status.executor with
  | some agent => callExecutor deadline .update workflow pipeline spec status agent
  | none => schedule deadline workflow pipeline spec status

/-- Take a pipeline off the agent that runs it; one that was never placed needs no call. -/
def remove (deadline : Span) (workflow pipeline : String) (spec : PipelineSpec)
    (status : PipelineStatus) : Control Result :=
  match status.executor with
  | some agent => callExecutor deadline .remove workflow pipeline spec status agent
  | none => pure (.ok (), status)

/-- Carry out an action. -/
def dispatch (deadline : Span) (action : PipelineAction) (workflow pipeline : String)
    (spec : PipelineSpec) (status : PipelineStatus) : Control Result :=
  match action with
  | .schedule => schedule deadline workflow pipeline spec status
  | .update => update deadline workflow pipeline spec status
  | .remove => remove deadline workflow pipeline spec status

/-- The health of one agent of the directory. -/
def healthOf (deadline : Span) (agent : String) : Control AgentHealth := do
  let result ←
    match ← Control.connect agent with
    | none => pure (Except.error (AgentError.unavailable agent))
    | some connection => do
      let reply ← Control.health connection deadline
      pure (answered agent deadline reply)
  match result with
  | .ok health => pure health
  | .error e => pure (.unreachable agent e.message)

/-- The health of the given agents, one after the other. -/
def healthOfAll (deadline : Span) : List AgentInfo → Control (List AgentHealth)
  | [] => pure []
  | agent :: rest => do
    let health ← healthOf deadline agent.name
    let more ← healthOfAll deadline rest
    pure (health :: more)

/-- The health of every agent of the directory; one that does not answer counts as unreachable. -/
def agentHealth (deadline : Span) : Control (List AgentHealth) := do
  healthOfAll deadline (← Control.agents)

end Scheduler

end FleetControl
