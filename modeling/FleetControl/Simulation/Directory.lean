import FleetControl.Simulation.Requests

/-!
# The directory of agents

Agents are registered in the directory under a name, with labels, and can be registered again under
another name. The world also remembers the newest agent of each kind under the name it was made
with, registered or not.

* `World.registerBench`, `World.registerScripted`, `World.deregister` — who is in the directory;
* `callRegistered` — a call to an agent of the directory, past the scheduler.
-/

namespace FleetControl.Simulation

namespace World

/-- Register an agent in the directory; an earlier one of that name is replaced. -/
def registerAgent (w : World) (listed : String) (labels : KeyMap String) (agent : SimulatedAgent) :
    Nat × World :=
  let (id, agents) := w.agents.add agent
  (id, { w with agents, directory := w.directory.insert listed ⟨labels, id⟩ })

/-- Make a bench agent and register it. -/
def registerBench (w : World) (name listed : String) (labels : KeyMap String) (refusing : Bool) :
    World :=
  let (id, w) := w.registerAgent listed labels (.bench (.new name refusing))
  { w with benchNames := w.benchNames.insert name id }

/-- Make a scripted agent and register it. -/
def registerScripted (w : World) (name listed : String) (labels : KeyMap String) : World :=
  let (id, w) := w.registerAgent listed labels (.scripted [])
  { w with scriptedNames := w.scriptedNames.insert name id }

/-- Take an agent out of the directory; whether it was there. -/
def deregister (w : World) (listed : String) : Bool × World :=
  (w.directory.contains listed, { w with directory := w.directory.erase listed })

/-- The newest bench agent of a name. -/
def findBench (w : World) (name : String) : Option BenchAgent :=
  ((w.benchNames.get? name).bind w.agents.get?).bind SimulatedAgent.bench?

/-- Change the newest bench agent of a name. -/
def modifyBench (w : World) (name : String) (f : BenchAgent → BenchAgent) : World :=
  match w.benchNames.get? name with
  | some id => w.modifyAgent id (SimulatedAgent.mapBench f)
  | none => w

/-- Tell the newest scripted agent of a name more replies; whether there is one. -/
def tellScripted (w : World) (name : String) (more : List ScriptedReply) : Bool × World :=
  match w.scriptedNames.get? name with
  | some id => (true, w.modifyAgent id (SimulatedAgent.tell more))
  | none => (false, w)

end World

/-- Call an agent of the directory, without a deadline. -/
def callRegistered (listed : String) (action : PipelineAction) (request : PipelineRequest) :
    Act World (Except AgentError PipelineReport) :=
  .read fun w =>
    match w.directory.get? listed with
    | some r => callAgent r.agent action request
    | none => .done (.error (.unavailable listed))

end FleetControl.Simulation
