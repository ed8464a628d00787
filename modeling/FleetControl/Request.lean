import FleetControl.Error
import FleetControl.Program

/-!
# What the control plane asks for

The requests of the scheduler, the reconcilers and the repository, and their replies. A call to an
agent carries its deadline; `none` is the reply when the deadline passes first.
-/

namespace FleetControl

/-- A connection to an agent. -/
structure Connection where
  /-- The number of the agent at its other end. -/
  agent : Nat
  deriving DecidableEq, Repr, Inhabited

/-- What the control plane asks for. -/
inductive Request where
  /-- The time. -/
  | clock
  /-- A store operation. -/
  | store (op : StoreOp)
  /-- Every agent of the directory, in ascending order of their names. -/
  | agents
  /-- A connection to the agent of a name. -/
  | connect (agent : String)
  /-- An agent for a new pipeline. -/
  | place (spec : PipelineSpec) (candidates : List AgentInfo)
  /-- A call about a pipeline. -/
  | call (connection : Connection) (deadline : Span) (action : PipelineAction)
      (request : PipelineRequest)
  /-- A call for an agent's health. -/
  | health (connection : Connection) (deadline : Span)

/-- The type of the reply to a request. -/
def Request.Reply : Request → Type
  | .clock => Instant
  | .store op => Except StoreError op.Reply
  | .agents => List AgentInfo
  | .connect _ => Option Connection
  | .place .. => Option String
  | .call .. => Option (Except AgentError PipelineReport)
  | .health .. => Option (Except AgentError AgentHealth)

/-- A program of the control plane. -/
abbrev Control (α : Type) := Program Request Request.Reply α

namespace Control

/-- Ask a request and end with its reply. -/
def ask (r : Request) : Control r.Reply := Program.ask r Program.done

/-- The time. -/
def clock : Control Instant := ask .clock

/-- Carry out a store operation. -/
def store (op : StoreOp) : Control (Except StoreError op.Reply) := ask (.store op)

/-- Read a live key. -/
def get (key : String) : Control (Except StoreError Snapshot) := store (.get key)

/-- Write a key; its new version. -/
def set (key : String) (data : Bytes) : Control (Except StoreError Nat) := store (.set key data)

/-- Delete a live key. -/
def delete (key : String) : Control (Except StoreError Unit) := store (.delete key)

/-- Whether there is a live key. -/
def contains (key : String) : Control (Except StoreError Bool) := store (.contains key)

/-- All keys under a scope, tombstones included. -/
def list (scope : String) : Control (Except StoreError (List Snapshot)) := store (.list scope)

/-- Every agent of the directory. -/
def agents : Control (List AgentInfo) := ask .agents

/-- A connection to an agent. -/
def connect (agent : String) : Control (Option Connection) := ask (.connect agent)

/-- An agent for a new pipeline. -/
def place (spec : PipelineSpec) (candidates : List AgentInfo) : Control (Option String) :=
  ask (.place spec candidates)

/-- Call an agent about a pipeline. -/
def call (connection : Connection) (deadline : Span) (action : PipelineAction)
    (request : PipelineRequest) : Control (Option (Except AgentError PipelineReport)) :=
  ask (.call connection deadline action request)

/-- Ask an agent for its health. -/
def health (connection : Connection) (deadline : Span) :
    Control (Option (Except AgentError AgentHealth)) :=
  ask (.health connection deadline)

end Control

end FleetControl
