import FleetControl.Agent.Basic
import FleetControl.Plan

/-!
# Agents of the simulation

A bench agent keeps pipelines in memory, remembers the calls it received, and can be told to be
slow, to refuse, or to be slow in replying after it has done what was asked. A scripted agent does
nothing and replies what it was told to.
-/

namespace FleetControl.Simulation

/-- A call that an agent received. -/
structure ReceivedCall where
  action : PipelineAction
  request : PipelineRequest
  deriving Inhabited

/-- A pipeline that an agent runs. -/
structure HeldPipeline where
  /-- The spec as it was sent. -/
  spec : Json
  lastRun : Option Instant
  deriving DecidableEq, Inhabited

/-- An agent that keeps pipelines in memory. -/
structure BenchAgent where
  name : String
  /-- The pipelines that it runs, by workflow and name. -/
  held : KeyMap (KeyMap HeldPipeline)
  calls : List ReceivedCall
  /-- Whether it refuses every call. -/
  refusing : Bool
  /-- How many calls it refuses from now on. -/
  refuseNext : Nat
  /-- The milliseconds before it does what was asked. -/
  delay : Nat
  /-- The milliseconds between doing it and replying. -/
  replyDelay : Nat
  serving : Bool

namespace BenchAgent

/-- An agent that runs nothing. -/
def new (name : String) (refusing : Bool) : BenchAgent :=
  ⟨name, .empty, [], refusing, 0, 0, 0, true⟩

/-- A span as the agent sleeps it: whole milliseconds, of 64 bits. -/
def sleepOf (s : Span) : Nat := s.nanos / Span.perMilli % Word.count64

/-- The pipeline that it runs under a name. -/
def find? (a : BenchAgent) (workflow pipeline : String) : Option HeldPipeline :=
  (a.held.get? workflow).bind fun ps => ps.get? pipeline

/-- Run a pipeline. -/
def hold (a : BenchAgent) (workflow pipeline : String) (p : HeldPipeline) : BenchAgent :=
  let ps := (a.held.get? workflow).getD .empty
  { a with held := a.held.insert workflow (ps.insert pipeline p) }

/-- Run a pipeline no more. -/
def drop (a : BenchAgent) (workflow pipeline : String) : BenchAgent :=
  match a.held.get? workflow with
  | some ps => { a with held := a.held.insert workflow (ps.erase pipeline) }
  | none => a

/-- The names of the pipelines that it runs, workflow first. -/
def names (a : BenchAgent) : List String :=
  a.held.toList.flatMap fun w => w.2.keys.map fun p => w.1 ++ "/" ++ p

/-- Remember a call. -/
def receive (a : BenchAgent) (action : PipelineAction) (request : PipelineRequest) : BenchAgent :=
  { a with calls := a.calls ++ [⟨action, request⟩] }

/-- Decide whether to refuse the call at hand. -/
def decide (a : BenchAgent) : Bool × BenchAgent :=
  match a.refuseNext with
  | 0 => (a.refusing, a)
  | n + 1 => (true, { a with refuseNext := n })

/-- The refusal of a call. -/
def refusal (a : BenchAgent) (action : PipelineAction) : AgentError :=
  .rejected a.name ("mock " ++ action.word ++ " failure")

/-- Do what was asked, and report it. -/
def carryOut (a : BenchAgent) (action : PipelineAction) (request : PipelineRequest) :
    PipelineReport × BenchAgent :=
  let previous := a.find? request.workflow request.pipeline
  let lastRun := previous.bind (·.lastRun)
  let held := a.hold request.workflow request.pipeline ⟨request.spec, lastRun⟩
  match action with
  | .schedule => (⟨a.name, "scheduled", lastRun⟩, held)
  | .update => (⟨a.name, "updated", lastRun⟩, held)
  | .remove =>
    (⟨a.name, if previous.isSome then "removed" else "absent", lastRun⟩,
      a.drop request.workflow request.pipeline)

/-- Note that a pipeline has just run. -/
def completeRun (a : BenchAgent) (workflow pipeline : String) (now : Instant) : BenchAgent :=
  match a.find? workflow pipeline with
  | some p => a.hold workflow pipeline { p with lastRun := some now }
  | none => a

/-- Its health. -/
def health (a : BenchAgent) : AgentHealth :=
  ⟨a.name, if a.serving then .serving else .notServing, some a.names.length, none⟩

end BenchAgent

/-- A reply that a scripted agent was told to give. -/
structure ScriptedReply where
  /-- The milliseconds before it replies. -/
  delay : Nat
  error : Option AgentError
  report : PipelineReport
  health : Option AgentHealth

/-- An agent of the simulation. -/
inductive SimulatedAgent where
  | bench (a : BenchAgent)
  | scripted (replies : List ScriptedReply)

namespace SimulatedAgent

/-- The bench agent, if it is one. -/
def bench? : SimulatedAgent → Option BenchAgent
  | bench a => some a
  | scripted _ => none

/-- Change a bench agent. -/
def mapBench (f : BenchAgent → BenchAgent) : SimulatedAgent → SimulatedAgent
  | bench a => bench (f a)
  | other => other

/-- Take the next reply off the script. -/
def nextReply : SimulatedAgent → Option ScriptedReply × SimulatedAgent
  | scripted (r :: rest) => (some r, scripted rest)
  | other => (none, other)

/-- Tell a scripted agent more replies. -/
def tell (more : List ScriptedReply) : SimulatedAgent → SimulatedAgent
  | scripted replies => scripted (replies ++ more)
  | other => other

end SimulatedAgent

end FleetControl.Simulation
