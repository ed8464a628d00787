import FleetControl.Agent.Basic

/-!
# Placement

Which agent a new pipeline goes to. A policy keeps one 64-bit counter and takes the eligible agents
in turn: all of them, or those that carry the labels that the pipeline selects by. A call for which
nobody is eligible leaves the counter alone.
-/

namespace FleetControl

/-- A placement policy. -/
inductive PlacementKind where
  /-- Every agent is eligible. -/
  | roundRobin
  /-- Agents that carry every label of the pipeline's selector are eligible. -/
  | label
  deriving DecidableEq, Repr, Inhabited

namespace PlacementKind

/-- The policy's name. -/
def name : PlacementKind → String
  | .roundRobin => "round-robin"
  | .label => "label"

/-- Read a policy's name, blanks around it and letter case apart; a name that is not known is given
back as it was looked up. -/
def ofName (text : String) : Except String PlacementKind :=
  let known := String.ofList (Text.lowerAscii (Text.trimChars text.toList))
  if ["round-robin", "round_robin", "roundrobin"].contains known then .ok .roundRobin
  else if ["label", "labels"].contains known then .ok .label
  else .error known

/-- The refusal of an unknown name in words. -/
def unknownName (known : String) : String := "unknown placement policy " ++ Text.quoted known

end PlacementKind

/-- A placement policy at work. -/
structure Placement where
  kind : PlacementKind
  /-- How many pipelines were placed, modulo `2^64`. -/
  placed : Nat
  deriving DecidableEq, Repr, Inhabited

namespace Placement

/-- A policy that has placed nothing. -/
def ofKind (kind : PlacementKind) : Placement := ⟨kind, 0⟩

/-- The agents that may run a pipeline. -/
def eligible (p : Placement) (spec : PipelineSpec) (candidates : List AgentInfo) :
    List AgentInfo :=
  match p.kind with
  | .roundRobin => candidates
  | .label => candidates.filter fun a => a.carries spec.selector

/-- Choose an agent for a pipeline, the next one in turn among the eligible. -/
def place (p : Placement) (spec : PipelineSpec) (candidates : List AgentInfo) :
    Option String × Placement :=
  let choice := p.eligible spec candidates
  if choice.isEmpty then (none, p)
  else ((choice[p.placed % choice.length]?).map (·.name),
    { p with placed := (p.placed + 1) % Word.count64 })

end Placement

end FleetControl
