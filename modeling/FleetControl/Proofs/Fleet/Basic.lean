import FleetControl.Proofs.KeyMap
import FleetControl.Proofs.Site.Basic
import FleetControl.Simulation.Requests

/-!
# Fleets of bench agents

A fleet is a fixed directory of bench agents that only the control plane calls. What becomes of each
call is left open: it may be lost before the agent does anything, the agent may refuse it, it may do
what was asked and not be heard in time, or it may answer. What placement chooses is left open too.
So a statement about all fleets covers every policy and every pattern of refusals and delays.

The fleet remembers the calls that its agents carried out, which is what the state of an agent can be
compared with.

* `Fate` and `BenchAgent.respond` — what becomes of a call;
* `Fleet.agents` — a fleet as the agents' side of a site;
* `Fleet.held` — the pipelines that are held, by the name of the agent;
* `Fleet.called` — what a call does, in these terms.
-/

namespace FleetControl

open Simulation

/-- Changing one object leaves the others. -/
theorem Simulation.Arena.get?_modify {α : Type} (a : Arena α) (id : Nat) (f : α → α) (j : Nat) :
    (a.modify id f).get? j = if j = id then (a.get? j).map f else a.get? j := by
  simp only [Arena.modify, Arena.get?, List.getElem?_modify]
  by_cases h : id = j
  · simp [h]
  · simp [h, Ne.symm h]

/-! ## Bench agents -/

/-- What becomes of a call to a bench agent. -/
inductive Fate where
  /-- The deadline passes before the agent does anything. -/
  | lost
  /-- The agent refuses. -/
  | refused
  /-- The agent does what was asked, but the deadline passes before it replies. -/
  | unheard
  /-- The agent does what was asked and replies in time. -/
  | answered
  deriving DecidableEq, Repr

/-- Whether a call is heard of, if it is carried out. -/
def Fate.heard? : Fate → Option Bool
  | lost => none
  | refused => none
  | unheard => some false
  | answered => some true

namespace Simulation.BenchAgent

/-- The part of an agent in a call of a fate. -/
def respond (a : BenchAgent) (fate : Fate) (action : PipelineAction) (request : PipelineRequest) :
    Option (Except AgentError PipelineReport) × BenchAgent :=
  let received := a.receive action request
  match fate with
  | .lost => (none, received)
  | .refused => (some (.error (a.refusal action)), received.decide.2)
  | .unheard => (none, (received.decide.2.carryOut action request).2)
  | .answered =>
    let r := received.decide.2.carryOut action request
    (some (.ok r.1), r.2)

@[simp] theorem find?_receive (a : BenchAgent) (action : PipelineAction)
    (request : PipelineRequest) (w p : String) :
    (a.receive action request).find? w p = a.find? w p := rfl

@[simp] theorem find?_decide (a : BenchAgent) (w p : String) :
    a.decide.2.find? w p = a.find? w p := by
  unfold decide
  split <;> rfl

@[simp] theorem name_decide (a : BenchAgent) : a.decide.2.name = a.name := by
  unfold decide
  split <;> rfl

theorem find?_hold (a : BenchAgent) (w p : String) (h : HeldPipeline) (w' p' : String) :
    (a.hold w p h).find? w' p' = if w' = w ∧ p' = p then some h else a.find? w' p' := by
  simp only [find?, hold, KeyMap.get?_insert]
  by_cases hw : w' = w
  · subst hw
    cases a.held.get? w' <;> by_cases hp : p' = p <;> simp [KeyMap.get?_insert, hp]
  · simp [hw]

theorem find?_drop (a : BenchAgent) (w p w' p' : String) :
    (a.drop w p).find? w' p' = if w' = w ∧ p' = p then none else a.find? w' p' := by
  unfold drop
  cases hheld : a.held.get? w with
  | none =>
      by_cases hw : w' = w
      · subst hw
        simp [find?, hheld]
      · simp [hw]
  | some ps =>
      simp only [find?, KeyMap.get?_insert]
      by_cases hw : w' = w
      · subst hw
        by_cases hp : p' = p <;> simp [hheld, KeyMap.get?_erase, hp]
      · simp [hw]

/-- Carrying out a call concerns one pipeline. -/
theorem find?_carryOut_of_ne (a : BenchAgent) (action : PipelineAction) (request : PipelineRequest)
    {w p : String} (h : ¬ (w = request.workflow ∧ p = request.pipeline)) :
    (a.carryOut action request).2.find? w p = a.find? w p := by
  cases action <;> simp [carryOut, find?_hold, find?_drop, h]

theorem name_carryOut (a : BenchAgent) (action : PipelineAction) (request : PipelineRequest) :
    (a.carryOut action request).1.executor = a.name ∧
      (a.carryOut action request).2.name = a.name := by
  cases action
  · exact ⟨rfl, rfl⟩
  · exact ⟨rfl, rfl⟩
  · refine ⟨rfl, ?_⟩
    simp only [carryOut, drop]
    split <;> rfl

theorem name_respond (a : BenchAgent) (fate : Fate) (action : PipelineAction)
    (request : PipelineRequest) : (a.respond fate action request).2.name = a.name := by
  cases fate
  · rfl
  · exact (name_decide _).trans rfl
  · exact ((name_carryOut _ _ _).2.trans (name_decide _)).trans rfl
  · exact ((name_carryOut _ _ _).2.trans (name_decide _)).trans rfl

/-- The instants of the pipelines that an agent runs are well formed. -/
def Dated (a : BenchAgent) : Prop :=
  ∀ w p h, a.find? w p = some h → ∀ t, h.lastRun = some t → t.WellFormed

theorem Dated.carryOut {a : BenchAgent} (ha : a.Dated) (action : PipelineAction)
    (request : PipelineRequest) :
    (a.carryOut action request).2.Dated ∧
      ∀ t, (a.carryOut action request).1.lastRun = some t → t.WellFormed := by
  have hlast : ∀ t, (a.find? request.workflow request.pipeline).bind (·.lastRun) = some t →
      t.WellFormed := by
    intro t ht
    obtain ⟨h, hfind, hrun⟩ := Option.bind_eq_some_iff.1 ht
    exact ha _ _ h hfind t hrun
  have hheld : (a.hold request.workflow request.pipeline
      ⟨request.spec, (a.find? request.workflow request.pipeline).bind (·.lastRun)⟩).Dated := by
    intro w p h hfind
    rw [find?_hold] at hfind
    split at hfind
    · obtain rfl := Option.some.inj hfind
      exact hlast
    · exact ha w p h hfind
  cases action
  · exact ⟨hheld, hlast⟩
  · exact ⟨hheld, hlast⟩
  · refine ⟨?_, hlast⟩
    intro w p h hfind
    simp only [BenchAgent.carryOut, find?_drop] at hfind
    split at hfind
    · cases hfind
    · exact ha w p h hfind

theorem Dated.respond {a : BenchAgent} (ha : a.Dated) (fate : Fate) (action : PipelineAction)
    (request : PipelineRequest) :
    (a.respond fate action request).2.Dated ∧
      ∀ report, (a.respond fate action request).1 = some (.ok report) →
        ∀ t, report.lastRun = some t → t.WellFormed := by
  have hdecided : (a.receive action request).decide.2.Dated := by
    intro w p h hfind
    rw [find?_decide, find?_receive] at hfind
    exact ha w p h hfind
  cases fate with
  | lost => exact ⟨ha, fun report h => by cases h⟩
  | refused => exact ⟨hdecided, fun report h => by cases h⟩
  | unheard => exact ⟨(hdecided.carryOut action request).1, fun report h => by cases h⟩
  | answered =>
      refine ⟨(hdecided.carryOut action request).1, ?_⟩
      intro report h
      obtain rfl := Except.ok.inj (Option.some.inj h)
      exact (hdecided.carryOut action request).2

end Simulation.BenchAgent

/-! ## Fleets -/

/-- A call that an agent carried out. -/
structure Deed where
  /-- Whether its reply came in time. -/
  heard : Bool
  action : PipelineAction
  request : PipelineRequest

/-- The spec that the call left with the agent, if any. -/
def Deed.leaves (d : Deed) : Option Json :=
  match d.action with
  | .remove => none
  | _ => some d.request.spec

/-- A directory of bench agents. -/
structure Fleet where
  directory : KeyMap Registration
  agents : Arena BenchAgent
  /-- What becomes of the next calls; later ones are answered. -/
  fates : List Fate
  /-- What placement chooses next; after that it chooses nobody. -/
  choices : List (Option String)
  /-- The calls that were carried out, the last one first. -/
  deeds : List Deed

namespace Fleet

/-- A call to the agent of a number. -/
def call (x : Fleet) (id : Nat) (action : PipelineAction) (request : PipelineRequest) :
    Option (Except AgentError PipelineReport) × Fleet :=
  match x.agents.get? id with
  | none => (some (.error noScriptedReply), x)
  | some a =>
    let fate := x.fates.headD .answered
    let r := a.respond fate action request
    (r.1, { x with
      agents := x.agents.modify id fun _ => r.2
      fates := x.fates.tail
      deeds := (fate.heard?.map fun heard => ⟨heard, action, request⟩).toList ++ x.deeds })

/-- The replies of a fleet. Time and the store are not its business. -/
def answer : (r : Request) → Fleet → r.Reply × Fleet
  | .clock, x => (⟨0, false⟩, x)
  | .store _, x => (.error (.other "no store"), x)
  | .agents, x => (x.directory.toList.map fun r => ⟨r.1, r.2.labels⟩, x)
  | .connect name, x => ((x.directory.get? name).map fun r => ⟨r.agent⟩, x)
  | .place _ _, x => (x.choices.headD none, { x with choices := x.choices.tail })
  | .call connection _ action request, x => x.call connection.agent action request
  | .health connection _, x =>
    (some (match x.agents.get? connection.agent with
      | some a => .ok a.health
      | none => .error noScriptedReply), x)

/-- The agent of a name. -/
def agent? (x : Fleet) (name : String) : Option BenchAgent :=
  (x.directory.get? name).bind fun r => x.agents.get? r.agent

/-- The pipeline that the agent of a name holds. -/
def held (x : Fleet) (name w p : String) : Option HeldPipeline :=
  (x.agent? name).bind fun a => a.find? w p

/-- The agent of a name holds a pipeline. -/
def Holds (x : Fleet) (name w p : String) : Prop := (x.held name w p).isSome = true

/-- Every agent of the directory is registered under its own name, which is not empty. -/
def Honest (x : Fleet) : Prop :=
  ∀ name r, x.directory.get? name = some r →
    name ≠ "" ∧ ∃ a, x.agents.get? r.agent = some a ∧ a.name = name

/-- The fleets that can come about: agents have their own names, and what they report holds
instants. -/
structure Proper (x : Fleet) : Prop where
  honest : x.Honest
  dated : ∀ id a, x.agents.get? id = some a → a.Dated

theorem Honest.call {x : Fleet} (h : x.Honest) (id : Nat) (action : PipelineAction)
    (request : PipelineRequest) : (x.call id action request).2.Honest := by
  unfold Fleet.call
  split
  · exact h
  · next a ha =>
    intro name r hr
    obtain ⟨hne, b, hb, hname⟩ := h name r hr
    refine ⟨hne, ?_⟩
    simp only [Arena.get?_modify]
    split
    · next heq =>
      rw [heq, ha] at hb
      obtain rfl := Option.some.inj hb
      exact ⟨_, by rw [heq, ha, Option.map_some], (a.name_respond _ _ _).trans hname⟩
    · exact ⟨b, hb, hname⟩

theorem Proper.call {x : Fleet} (h : x.Proper) (id : Nat) (action : PipelineAction)
    (request : PipelineRequest) : (x.call id action request).2.Proper := by
  refine ⟨h.honest.call id action request, ?_⟩
  unfold Fleet.call
  split
  · exact h.dated
  · next a ha =>
    intro j b hb
    simp only [Arena.get?_modify] at hb
    split at hb
    · obtain ⟨c, hc, rfl⟩ := Option.map_eq_some_iff.1 hb
      exact ((h.dated id a ha).respond _ action request).1
    · exact h.dated j b hb

/-- A fleet as the agents' side of a site. -/
def side : AgentSide Fleet where
  answer := answer
  Proper := Proper
  proper := by
    intro r x h
    cases r with
    | call c d action request => exact h.call c.agent action request
    | place spec candidates => exact ⟨h.honest, h.dated⟩
    | _ => exact h
  dated := by
    intro c d action request x report h hreply
    change (x.call c.agent action request).1 = some (.ok report) at hreply
    unfold Fleet.call at hreply
    split at hreply
    · cases hreply
    · next a ha => exact ((h.dated c.agent a ha).respond _ action request).2 report hreply

/-- Once every call is answered it stays so. -/
theorem fates_run {α : Type} (p : Control α) {x : Fleet} (h : x.fates = []) :
    (p.run side.answer x).2.fates = [] := by
  induction p generalizing x with
  | done a => exact h
  | ask r next ih =>
      apply ih
      cases r with
      | call c d action request =>
          change (x.call c.agent action request).2.fates = []
          unfold Fleet.call
          split
          · exact h
          · simp [h]
      | _ => exact h

/-- Once every call is answered, every agent answers. -/
theorem call_of_fates {x : Fleet} (h : x.fates = []) {id : Nat} {a : BenchAgent}
    (ha : x.agents.get? id = some a) (action : PipelineAction) (request : PipelineRequest) :
    ∃ report, (x.call id action request).1 = some (.ok report) := by
  unfold Fleet.call
  rw [ha, h]
  exact ⟨_, rfl⟩

/-! ## What a call does -/

/-- Nothing was carried out. -/
structure Idle (x x' : Fleet) : Prop where
  directory : x'.directory = x.directory
  held : ∀ name w p, x'.held name w p = x.held name w p
  deeds : x'.deeds = x.deeds

/-- The agent of a name carried out a call. -/
structure Did (x x' : Fleet) (name : String) (deed : Deed) : Prop where
  directory : x'.directory = x.directory
  others : ∀ other w p, ¬ (other = name ∧ w = deed.request.workflow ∧ p = deed.request.pipeline) →
    x'.held other w p = x.held other w p
  own : (x'.held name deed.request.workflow deed.request.pipeline).map (·.spec) = deed.leaves
  deeds : x'.deeds = deed :: x.deeds

theorem Idle.refl (x : Fleet) : Idle x x := ⟨rfl, fun _ _ _ => rfl, rfl⟩

theorem Idle.trans {x y z : Fleet} (h : Idle x y) (h' : Idle y z) : Idle x z :=
  ⟨h'.directory.trans h.directory, fun name w p => (h'.held name w p).trans (h.held name w p),
    h'.deeds.trans h.deeds⟩

/-- Before an agent carried out a call nothing else had been. -/
theorem Idle.trans_did {x y z : Fleet} {name : String} {deed : Deed} (h : Idle x y)
    (h' : Did y z name deed) : Did x z name deed :=
  ⟨h'.directory.trans h.directory,
    fun other w p hne => (h'.others other w p hne).trans (h.held other w p), h'.own,
    h'.deeds.trans (congrArg (deed :: ·) h.deeds)⟩

/-- The effect and the reply of a call to the agent of a name. -/
inductive Called (x : Fleet) (name : String) (action : PipelineAction)
    (request : PipelineRequest) : Option (Except AgentError PipelineReport) → Fleet → Prop where
  | lost {x' : Fleet} (h : Idle x x') : Called x name action request none x'
  | refused {x' : Fleet} {e : AgentError} (he : ∀ agent deadline, e ≠ .timeout agent deadline)
      (h : Idle x x') : Called x name action request (some (.error e)) x'
  | unheard {x' : Fleet} (h : Did x x' name ⟨false, action, request⟩) :
      Called x name action request none x'
  | answered {x' : Fleet} {report : PipelineReport} (hreport : report.executor = name)
      (h : Did x x' name ⟨true, action, request⟩) :
      Called x name action request (some (.ok report)) x'

/-- The agent of a name after a call to the agent of another. -/
private theorem agent?_call {x : Fleet} (h : x.Honest) {name : String} {r : Registration}
    (hr : x.directory.get? name = some r) (action : PipelineAction) (request : PipelineRequest)
    {a : BenchAgent} (ha : x.agents.get? r.agent = some a) (other : String) :
    (x.call r.agent action request).2.agent? other =
      if other = name then some (a.respond (x.fates.headD .answered) action request).2
      else x.agent? other := by
  have hcall : (x.call r.agent action request).2.agent? other =
      (x.directory.get? other).bind fun r' => (x.agents.modify r.agent fun _ =>
        (a.respond (x.fates.headD .answered) action request).2).get? r'.agent := by
    unfold Fleet.call
    rw [ha]
    rfl
  rw [hcall]
  by_cases hother : other = name
  · subst hother
    simp [hr, Arena.get?_modify, ha]
  · rw [if_neg hother]
    unfold agent?
    cases hdir : x.directory.get? other with
    | none => rfl
    | some r' =>
        -- Agents are registered under their own names, so another name is another agent.
        have hne : r'.agent ≠ r.agent := by
          intro heq
          obtain ⟨-, b, hb, hname⟩ := h other r' hdir
          obtain ⟨-, c, hc, hname'⟩ := h name r hr
          rw [heq, hc] at hb
          obtain rfl := Option.some.inj hb
          exact hother (hname.symm.trans hname')
        simp [Arena.get?_modify, hne]

section Touched

/-! Only the agent of one name was touched by a call: what it holds afterwards is what is told of it,
and the others hold what they held. -/

variable {x x' : Fleet} {name : String} {a b : BenchAgent}

/-- An agent that was only called holds what it held. -/
private theorem idle_of_touched (hdirectory : x'.directory = x.directory)
    (hself : x.agent? name = some a)
    (hagent : ∀ other, x'.agent? other = if other = name then some b else x.agent? other)
    (hsame : ∀ w p, b.find? w p = a.find? w p) (hdeeds : x'.deeds = x.deeds) : Idle x x' := by
  refine ⟨hdirectory, fun other w p => ?_, hdeeds⟩
  unfold held
  rw [hagent]
  by_cases hother : other = name
  · rw [if_pos hother, hother, hself, Option.bind_some, Option.bind_some, hsame]
  · rw [if_neg hother]

/-- An agent that carried a call out holds what the call left with it. -/
private theorem did_of_touched {heard : Bool} {action : PipelineAction} {request : PipelineRequest}
    (hdirectory : x'.directory = x.directory) (hself : x.agent? name = some a)
    (hagent : ∀ other, x'.agent? other = if other = name then
      some ((a.receive action request).decide.2.carryOut action request).2 else x.agent? other)
    (hdeeds : x'.deeds = ⟨heard, action, request⟩ :: x.deeds) :
    Did x x' name ⟨heard, action, request⟩ := by
  refine ⟨hdirectory, fun other w p hne => ?_, ?_, hdeeds⟩
  · unfold held
    rw [hagent]
    by_cases hother : other = name
    · rw [if_pos hother, hother, hself, Option.bind_some, Option.bind_some,
        BenchAgent.find?_carryOut_of_ne _ _ _ fun heq => hne ⟨hother, heq⟩]
      simp
    · rw [if_neg hother]
  · unfold held
    rw [hagent, if_pos rfl, Option.bind_some]
    cases action <;>
      simp [BenchAgent.carryOut, BenchAgent.find?_hold, BenchAgent.find?_drop, Deed.leaves]

end Touched

/-- **What a call does**: the agent refuses, or carries it out, and either may not be heard of. -/
theorem called {x : Fleet} (h : x.Honest) {name : String} {r : Registration}
    (hr : x.directory.get? name = some r) (action : PipelineAction) (request : PipelineRequest) :
    Called x name action request (x.call r.agent action request).1
      (x.call r.agent action request).2 := by
  obtain ⟨-, a, ha, hname⟩ := h name r hr
  have hagent := agent?_call h hr action request ha
  have hself : x.agent? name = some a := by rw [agent?, hr, Option.bind_some, ha]
  have hdirectory : (x.call r.agent action request).2.directory = x.directory := by
    unfold Fleet.call
    rw [ha]
  have hreply : (x.call r.agent action request).1 =
      (a.respond (x.fates.headD .answered) action request).1 := by
    unfold Fleet.call
    rw [ha]
  have hdeeds : (x.call r.agent action request).2.deeds =
      ((x.fates.headD .answered).heard?.map fun heard =>
        (⟨heard, action, request⟩ : Deed)).toList ++ x.deeds := by
    unfold Fleet.call
    rw [ha]
  rw [hreply]
  generalize (x.call r.agent action request).2 = x' at hagent hdirectory hdeeds ⊢
  generalize x.fates.headD .answered = fate at hagent hdeeds ⊢
  cases fate with
  | lost => exact .lost (idle_of_touched hdirectory hself hagent (fun _ _ => rfl) hdeeds)
  | refused =>
      exact .refused (fun _ _ => by simp [BenchAgent.refusal])
        (idle_of_touched hdirectory hself hagent (by simp [BenchAgent.respond]) hdeeds)
  | unheard => exact .unheard (did_of_touched hdirectory hself hagent hdeeds)
  | answered =>
      refine .answered ?_ (did_of_touched hdirectory hself hagent hdeeds)
      exact (BenchAgent.name_carryOut _ _ _).1.trans ((BenchAgent.name_decide _).trans hname)

/-! ## Fleets of idle agents -/

/-- Idle agents, each registered under its own name. -/
def ofNames (names : List String) (fates : List Fate) (choices : List (Option String)) : Fleet where
  directory := .ofList (names.zipIdx.map fun x => (x.1, ⟨.empty, x.2⟩))
  agents := ⟨names.map fun name => .new name false⟩
  fates := fates
  choices := choices
  deeds := []

variable {names : List String} (fates : List Fate) (choices : List (Option String))

theorem honest_ofNames (h : ∀ name ∈ names, name ≠ "") : (ofNames names fates choices).Honest := by
  intro name r hr
  obtain ⟨x, hx, heq⟩ := List.mem_map.1 (KeyMap.mem_of_get?_ofList hr)
  obtain ⟨rfl, rfl⟩ := Prod.mk.inj heq
  have hget := List.mk_mem_zipIdx_iff_getElem?.1 hx
  refine ⟨h _ (List.mem_of_getElem? hget), .new x.1 false, ?_, rfl⟩
  simp [ofNames, Arena.get?, hget]

theorem idle_ofNames {id : Nat} {a : BenchAgent}
    (h : (ofNames names fates choices).agents.get? id = some a) (w p : String) :
    a.find? w p = none := by
  simp only [ofNames, Arena.get?, List.getElem?_map] at h
  obtain ⟨name, -, rfl⟩ := Option.map_eq_some_iff.1 h
  rfl

theorem proper_ofNames (h : ∀ name ∈ names, name ≠ "") : (ofNames names fates choices).Proper := by
  refine ⟨honest_ofNames fates choices h, ?_⟩
  intro id a ha w p held hheld
  rw [idle_ofNames fates choices ha] at hheld
  cases hheld

end Fleet

end FleetControl
