import FleetControl.Proofs.Fleet.Basic

/-!
# Programs alone in the simulated world

Statements about the control plane are about sites, where a program runs at once and a call to an
agent has a fate. In the simulated world a program sleeps, waits and takes turns with others, and what
becomes of a call depends on how slow its agent is. A program that nothing interrupts ends in the
world as it can end at the site with the same store and the same agents.

* `Act.alone` — the run of an act that nothing interrupts;
* `alone_callAgent` — a call to a bench agent is the agent's response in a call of its fate;
* `Mirrors` — the world and the site have the same store and agents that hold the same;
* `canEnd_of_alone` — what a program does alone in a world it can do at the site.
-/

namespace FleetControl.Simulation

/-! ## Acts that nothing interrupts -/

namespace Act

variable {α β : Type}

/-- The run of an act while nothing else takes its turn: a sleep lets the clock go on, and nobody
brings about what is waited for. -/
def alone : Act World α → World → Option α × World
  | done a, w => (some a, w)
  | crash, w => (none, w)
  | read next, w => (next w).alone w
  | write change next, w => next.alone (change w)
  | sleep millis next, w => next.alone { w with now := w.now + millis }
  | await ready next, w => if ready w then next.alone w else (none, w)

/-- What a run ended with is one value and one world. -/
theorem ended_inj {a b : α} {w w' : World} (h : (some a, w) = (some b, w')) : a = b ∧ w = w' :=
  (Prod.mk.inj h).imp_left Option.some.inj

/-- A second act goes on from the value and the world of the first. -/
theorem alone_bind (act : Act World α) (f : α → Act World β) (w : World) :
    (act.bind f).alone w = match act.alone w with
      | (some a, w) => (f a).alone w
      | (none, w) => (none, w) := by
  induction act generalizing w with
  | done a => rfl
  | crash => rfl
  | read next ih => exact ih w w
  | write change next ih => exact ih (change w)
  | sleep millis next ih => exact ih _
  | await ready next ih =>
      simp only [bind, alone]
      split
      · exact ih w
      · rfl

/-- Two acts that come to an end one after the other both do. -/
theorem alone_bind_eq_some {act : Act World α} {f : α → Act World β} {w w' : World} {b : β}
    (h : (act.bind f).alone w = (some b, w')) :
    ∃ a w₁, act.alone w = (some a, w₁) ∧ (f a).alone w₁ = (some b, w') := by
  rw [alone_bind] at h
  split at h
  · next a w₁ hact => exact ⟨a, w₁, hact, h⟩
  · cases h

end Act

/-! ## Calls to bench agents -/

/-- What becomes of a call that is given up after a time. -/
def BenchAgent.fate (a : BenchAgent) (left : Nat) : Fate :=
  if left < min a.delay Act.longestPause then .lost
  else if a.decide.1 then .refused
  else if left - min a.delay Act.longestPause < min a.replyDelay Act.longestPause then .unheard
  else .answered

/-- Noting a call changes neither what is decided about it nor when the agent replies. -/
theorem BenchAgent.decide_receive (a : BenchAgent) (action : PipelineAction)
    (request : PipelineRequest) :
    (a.receive action request).decide.1 = a.decide.1 ∧
      (a.receive action request).decide.2.replyDelay = a.replyDelay := by
  cases hleft : a.refuseNext <;> simp [decide, receive, hleft]

theorem Arena.modify_modify {α : Type} (a : Arena α) (id : Nat) (x y : α) :
    (a.modify id fun _ => x).modify id (fun _ => y) = a.modify id fun _ => y := by
  simp only [Arena.modify, List.modify_modify_eq]
  rfl

theorem Act.bind_eq {σ α β : Type} (act : Act σ α) (f : α → Act σ β) :
    (act >>= f) = act.bind f := rfl

theorem Act.pure_eq {σ α : Type} (a : α) : (pure a : Act σ α) = .done a := rfl

/-- **A call to a bench agent** is the agent's response in a call of its fate. -/
theorem alone_callAgent {w : World} {id : Nat} {a : BenchAgent}
    (h : w.agents.get? id = some (.bench a)) (action : PipelineAction)
    (request : PipelineRequest) (left : Nat) :
    ∃ elapsed, ((callAgent id action request).within left).alone w =
      (some (a.respond (a.fate left) action request).1,
        { w with
          now := w.now + elapsed
          agents := w.agents.modify id fun _ =>
            .bench (a.respond (a.fate left) action request).2 }) := by
  have hget : ∀ b : BenchAgent,
      (w.agents.modify id fun _ => .bench b).get? id = some (.bench b) := by
    intro b
    rw [Arena.get?_modify, if_pos rfl, h, Option.map_some]
  obtain ⟨hdecided, hreply⟩ := a.decide_receive action request
  simp only [callAgent, Act.within, Act.alone, h, callBench, Act.bind_eq, Act.pure_eq, Act.update,
    Act.bind, Option.bind_some, SimulatedAgent.bench?, Act.pause, World.modifyAgent]
  by_cases hdelay : min a.delay Act.longestPause ≤ left
  · simp only [hdelay, if_true, Act.alone, hget, Option.bind_some, SimulatedAgent.bench?]
    by_cases hrefuses : a.decide.1 = true
    · have hfate : a.fate left = .refused := by
        simp [BenchAgent.fate, Nat.not_lt.2 hdelay, hrefuses]
      refine ⟨min a.delay Act.longestPause, ?_⟩
      simp only [hdecided, hrefuses, if_true, Act.within, Act.alone, hfate, BenchAgent.respond,
        Arena.modify_modify]
      rfl
    · simp only [hdecided, hrefuses, Bool.false_eq_true, if_false, Act.within, Act.alone,
        Arena.modify_modify, hget, Option.bind_some, SimulatedAgent.bench?, hreply]
      by_cases hlate : min a.replyDelay Act.longestPause ≤ left - min a.delay Act.longestPause
      · have hfate : a.fate left = .answered := by
          simp [BenchAgent.fate, Nat.not_lt.2 hdelay, hrefuses, Nat.not_lt.2 hlate]
        refine ⟨min a.delay Act.longestPause + min a.replyDelay Act.longestPause, ?_⟩
        simp only [hlate, if_true, Act.alone, hfate, BenchAgent.respond, Nat.add_assoc]
      · have hfate : a.fate left = .unheard := by
          simp [BenchAgent.fate, Nat.not_lt.2 hdelay, hrefuses, Nat.lt_of_not_le hlate]
        refine ⟨min a.delay Act.longestPause + (left - min a.delay Act.longestPause), ?_⟩
        simp only [hlate, if_false, Act.alone, hfate, BenchAgent.respond, Nat.add_assoc]
  · have hfate : a.fate left = .lost := by
      simp [BenchAgent.fate, Nat.lt_of_not_le hdelay]
    refine ⟨left, ?_⟩
    simp only [hdelay, if_false, Act.alone, hfate, BenchAgent.respond]

/-! ## Agents that agree -/

namespace BenchAgent

/-- Two agents have the same name and hold the same; they may be set to different delays and
refusals. -/
structure Agrees (a b : BenchAgent) : Prop where
  name : a.name = b.name
  held : a.held = b.held
  serving : a.serving = b.serving

theorem Agrees.decide {a b : BenchAgent} (h : a.Agrees b) : a.decide.2.Agrees b.decide.2 := by
  have hkept : ∀ c : BenchAgent, c.decide.2.Agrees c := by
    intro c
    unfold BenchAgent.decide
    split <;> exact ⟨rfl, rfl, rfl⟩
  exact ⟨(hkept a).name.trans (h.name.trans (hkept b).name.symm),
    (hkept a).held.trans (h.held.trans (hkept b).held.symm),
    (hkept a).serving.trans (h.serving.trans (hkept b).serving.symm)⟩

theorem Agrees.carryOut {a b : BenchAgent} (h : a.Agrees b) (action : PipelineAction)
    (request : PipelineRequest) :
    (a.carryOut action request).1 = (b.carryOut action request).1 ∧
      (a.carryOut action request).2.Agrees (b.carryOut action request).2 := by
  have hfind : ∀ w p, a.find? w p = b.find? w p := fun w p => by simp only [find?, h.held]
  cases action with
  | schedule =>
      simp only [BenchAgent.carryOut, hold, hfind, h.name, h.held]
      exact ⟨trivial, rfl, rfl, h.serving⟩
  | update =>
      simp only [BenchAgent.carryOut, hold, hfind, h.name, h.held]
      exact ⟨trivial, rfl, rfl, h.serving⟩
  | remove =>
      simp only [BenchAgent.carryOut, drop, hfind, h.name, h.held]
      split
      · exact ⟨trivial, rfl, rfl, h.serving⟩
      · exact ⟨trivial, h.name, h.held, h.serving⟩

/-- Agents that agree respond alike to a call of the same fate. -/
theorem Agrees.respond {a b : BenchAgent} (h : a.Agrees b) (fate : Fate) (action : PipelineAction)
    (request : PipelineRequest) :
    (a.respond fate action request).1 = (b.respond fate action request).1 ∧
      (a.respond fate action request).2.Agrees (b.respond fate action request).2 := by
  have hreceived : (a.receive action request).Agrees (b.receive action request) :=
    ⟨h.name, h.held, h.serving⟩
  have hcarried := hreceived.decide.carryOut action request
  cases fate with
  | lost => exact ⟨rfl, hreceived⟩
  | refused =>
      refine ⟨?_, hreceived.decide⟩
      simp only [BenchAgent.respond, refusal, h.name]
  | unheard => exact ⟨rfl, hcarried.2⟩
  | answered =>
      refine ⟨?_, hcarried.2⟩
      simp only [BenchAgent.respond, hcarried.1]

theorem Agrees.health {a b : BenchAgent} (h : a.Agrees b) : a.health = b.health := by
  simp only [BenchAgent.health, names, h.name, h.held, h.serving]

end BenchAgent

/-! ## Programs of the control plane -/

/-- A world with a store in memory, without injected faults, whose agents are those of a fleet. -/
structure Mirrors (w : World) (m : Memory) (x : Fleet) : Prop where
  backend : w.backend = .memory m
  faults : w.faults = .empty
  directory : w.directory = x.directory
  agents : ∀ id, (w.agents.get? id = none ∧ x.agents.get? id = none) ∨
    ∃ a b, w.agents.get? id = some (.bench a) ∧ x.agents.get? id = some b ∧ a.Agrees b

/-- A later world that differs in what programs of the control plane may change. -/
structure Onward (w w' : World) : Prop where
  now : w.now ≤ w'.now
  deadline : ∀ scheduler, w'.deadline scheduler = w.deadline scheduler
  rest : w' = { w with
    now := w'.now, backend := w'.backend, agents := w'.agents, schedulers := w'.schedulers }

theorem Onward.refl (w : World) : Onward w w := ⟨Nat.le_refl _, fun _ => rfl, rfl⟩

theorem Onward.trans {w w' w'' : World} (h : Onward w w') (h' : Onward w' w'') : Onward w w'' := by
  refine ⟨Nat.le_trans h.now h'.now, fun id => (h'.deadline id).trans (h.deadline id), ?_⟩
  rw [h'.rest, h.rest]

/-- A program of the control plane can end at a site with a value, and with another store and other
agents, for some readings of the clock, fates of calls and choices of placement. What comes later is
left open. -/
def CanEnd {α : Type} (p : Control α) (m : Memory) (x : Fleet) (a : α) (m' : Memory) (x' : Fleet) :
    Prop :=
  ∀ now, ∃ now', ∀ later fates choices, ∃ later' fates' choices',
    p.exec (Site.answer Fleet.side) ⟨now, later', m, { x with fates := fates', choices := choices' }⟩ =
      (some a, ⟨now', later, m', { x' with fates, choices }⟩)

/-- A clock that shows instants has shown them since the start. -/
theorem wellFormed_of_le {w w' : World} (hle : w.now ≤ w'.now) (h : w'.instant.WellFormed) :
    w.instant.WellFormed := by
  have hstart : Instant.first.nanos ≤ World.startOfTime.nanos := by decide
  have hw : w.instant.nanos = World.startOfTime.nanos + (w.now * Span.perMilli : Nat) := rfl
  have hw' : w'.instant.nanos = World.startOfTime.nanos + (w'.now * Span.perMilli : Nat) := rfl
  have hmillis := Nat.mul_le_mul_right Span.perMilli hle
  have hdated := h.dated
  simp only [Instant.hasDate, Bool.and_eq_true, decide_eq_true_eq] at hdated
  refine ⟨?_, fun hleap => by cases hleap⟩
  simp only [Instant.hasDate, Bool.and_eq_true, decide_eq_true_eq]
  omega

variable {scheduler : Nat}

/-! ### Requests -/

section Requests

variable {w w' : World} {m : Memory} {x : Fleet}

/-- A request that is answered from the fleet and changes nothing. -/
theorem canEnd_look (h : Mirrors w m x) {r : Request} (hr : r.remote = true) {reply : r.Reply}
    (hreply : ∀ fates choices, Fleet.answer r { x with fates := fates, choices := choices } =
      (reply, { x with fates := fates, choices := choices })) :
    Onward w w ∧ ∃ m' x', Mirrors w m' x' ∧
      (w.instant.WellFormed → CanEnd (Control.ask r) m x reply m' x') := by
  refine ⟨.refl w, m, x, h, fun _ now => ⟨now, fun later fates choices =>
    ⟨later, fates, choices, ?_⟩⟩⟩
  have hanswer : Fleet.side.answer r { x with fates := fates, choices := choices } = _ :=
    hreply fates choices
  rw [Control.ask, Program.exec_ask, Site.answer_remote Fleet.side hr, hanswer]

/-- An operation of the store. -/
theorem canEnd_store (h : Mirrors w m x) {op : StoreOp} {reply : Except StoreError op.Reply}
    (hrun : (storeOp op).alone w = (some reply, w')) :
    Onward w w' ∧ ∃ m' x', Mirrors w' m' x' ∧
      (w.instant.WellFormed → CanEnd (Control.ask (.store op)) m x reply m' x') := by
  simp only [storeOp, Act.alone, h.faults, KeyMap.get?_empty, h.backend, Backend.apply] at hrun
  cases happly : m.apply w.instant op with
  | mk outcome m' =>
      rw [happly] at hrun
      have honward : Onward w { w with backend := .memory m', faults := .empty } :=
        ⟨Nat.le_refl _, fun _ => rfl, by rw [← h.faults]⟩
      have hmirrors : Mirrors { w with backend := .memory m', faults := .empty } m' x :=
        ⟨rfl, rfl, h.directory, h.agents⟩
      have hends : ∀ reply, (∀ s : Site Fleet, s.stored (outcome, m') =
          (some reply, { s with store := m' })) → w.instant.WellFormed →
            CanEnd (Control.ask (.store op)) m x reply m' x := by
        intro reply hstored hdated now
        refine ⟨⟨w.instant, hdated⟩, fun later fates choices =>
          ⟨⟨w.instant, hdated⟩ :: later, fates, choices, (Program.exec_ask _ _ _).trans ?_⟩⟩
        simp only [Site.answer, Site.tick, happly]
        exact hstored _
      cases outcome with
      | answer a =>
          obtain ⟨rfl, rfl⟩ := Act.ended_inj hrun
          exact ⟨honward, m', x, hmirrors, hends _ fun _ => rfl⟩
      | refused e =>
          obtain ⟨rfl, rfl⟩ := Act.ended_inj hrun
          exact ⟨honward, m', x, hmirrors, hends _ fun _ => rfl⟩
      | undatable => cases hrun

/-- A choice of the placement policy. -/
theorem canEnd_place (h : Mirrors w m x) (spec : PipelineSpec) (candidates : List AgentInfo) :
    Onward w (placeBy scheduler spec candidates w).2 ∧
      ∃ m' x', Mirrors (placeBy scheduler spec candidates w).2 m' x' ∧
        (w.instant.WellFormed → CanEnd (Control.ask (.place spec candidates)) m x
          (placeBy scheduler spec candidates w).1 m' x') := by
  have hplaced : Onward w (placeBy scheduler spec candidates w).2 ∧
      Mirrors (placeBy scheduler spec candidates w).2 m x := by
    unfold placeBy
    split
    · exact ⟨.refl w, h⟩
    · refine ⟨⟨Nat.le_refl _, fun id => ?_, rfl⟩,
        ⟨h.backend, h.faults, h.directory, h.agents⟩⟩
      simp only [World.deadline, Arena.get?_modify]
      split
      · next hid =>
        subst hid
        cases w.schedulers.get? id <;> rfl
      · rfl
  exact ⟨hplaced.1, m, x, hplaced.2, fun _ now => ⟨now, fun later fates choices =>
    ⟨later, fates, (placeBy scheduler spec candidates w).1 :: choices,
      (Program.exec_ask _ _ _).trans rfl⟩⟩⟩

/-- A call to an agent that is there takes the next fate. -/
theorem answer_call {connection : Connection} {b : BenchAgent}
    (h : x.agents.get? connection.agent = some b) (deadline : Span) (action : PipelineAction)
    (request : PipelineRequest) (fate : Fate) (fates : List Fate) (choices : List (Option String))
    (now : Moment) (later : List Moment) :
    Site.answer Fleet.side (.call connection deadline action request)
        ⟨now, later, m, { x with fates := fate :: fates, choices := choices }⟩ =
      (some (b.respond fate action request).1, ⟨now, later, m, { x with
        agents := x.agents.modify connection.agent fun _ => (b.respond fate action request).2
        deeds := (fate.heard?.map fun heard => ⟨heard, action, request⟩).toList ++ x.deeds
        fates := fates, choices := choices }⟩) := by
  have hcalled : Fleet.call { x with fates := fate :: fates, choices := choices }
      connection.agent action request = ((b.respond fate action request).1, { x with
        agents := x.agents.modify connection.agent fun _ => (b.respond fate action request).2
        deeds := (fate.heard?.map fun heard => ⟨heard, action, request⟩).toList ++ x.deeds
        fates := fates, choices := choices }) := by
    simp only [Fleet.call, h, List.headD_cons, List.tail_cons]
  have hanswered : Fleet.side.answer (.call connection deadline action request)
      { x with fates := fate :: fates, choices := choices } = _ := hcalled
  rw [Site.answer_remote Fleet.side rfl]
  simp only [hanswered]
  rfl

/-- A call to an agent. -/
theorem canEnd_call (h : Mirrors w m x) {connection : Connection} {deadline : Span}
    {action : PipelineAction} {request : PipelineRequest}
    {reply : Option (Except AgentError PipelineReport)}
    (hrun : ((callAgent connection.agent action request).within deadline.millis).alone w =
      (some reply, w')) :
    Onward w w' ∧ ∃ m' x', Mirrors w' m' x' ∧ (w.instant.WellFormed →
      CanEnd (Control.ask (.call connection deadline action request)) m x reply m' x') := by
  rcases h.agents connection.agent with ⟨hnone, hnobody⟩ | ⟨a, b, hbench, hagent, hagrees⟩
  · simp only [callAgent, nextScripted, Act.update, Act.bind_eq, Act.pure_eq, Act.bind, Act.within,
      Act.alone, hnone] at hrun
    obtain ⟨rfl, rfl⟩ := Act.ended_inj hrun
    refine canEnd_look h rfl fun fates choices => ?_
    simp only [Fleet.answer, Fleet.call, hnobody]
    rfl
  · obtain ⟨elapsed, hcall⟩ := alone_callAgent hbench action request deadline.millis
    obtain ⟨rfl, rfl⟩ := Act.ended_inj (hcall.symm.trans hrun)
    generalize a.fate deadline.millis = fate
    obtain ⟨hsame, hafter⟩ := hagrees.respond fate action request
    refine ⟨⟨Nat.le_add_right _ _, fun _ => rfl, rfl⟩, m, { x with
      agents := x.agents.modify connection.agent fun _ => (b.respond fate action request).2
      deeds := (fate.heard?.map fun heard => ⟨heard, action, request⟩).toList ++ x.deeds },
      ⟨h.backend, h.faults, h.directory, fun id => ?_⟩, fun _ now => ⟨now,
        fun later fates choices => ⟨later, fate :: fates, choices,
          (Program.exec_ask _ _ _).trans ?_⟩⟩⟩
    · simp only [Arena.get?_modify]
      by_cases hid : id = connection.agent
      · subst hid
        exact .inr ⟨_, _, by rw [if_pos rfl, hbench]; rfl, by rw [if_pos rfl, hagent]; rfl, hafter⟩
      · rw [if_neg hid, if_neg hid]
        exact h.agents id
    · rw [hsame]
      exact answer_call hagent deadline action request fate fates choices now later

/-- A question about an agent's health. -/
theorem canEnd_health (h : Mirrors w m x) {connection : Connection} {deadline : Span}
    {reply : Option (Except AgentError AgentHealth)}
    (hrun : ((askHealth connection.agent).within deadline.millis).alone w = (some reply, w')) :
    Onward w w' ∧ ∃ m' x', Mirrors w' m' x' ∧ (w.instant.WellFormed →
      CanEnd (Control.ask (.health connection deadline)) m x reply m' x') := by
  rcases h.agents connection.agent with ⟨hnone, hnobody⟩ | ⟨a, b, hbench, hagent, hagrees⟩
  · simp only [askHealth, nextScripted, Act.update, Act.bind_eq, Act.pure_eq, Act.bind, Act.within,
      Act.alone, hnone] at hrun
    obtain ⟨rfl, rfl⟩ := Act.ended_inj hrun
    refine canEnd_look h rfl fun fates choices => ?_
    simp only [Fleet.answer, hnobody]
  · simp only [askHealth, Act.within, Act.alone, hbench] at hrun
    obtain ⟨rfl, rfl⟩ := Act.ended_inj hrun
    refine canEnd_look h rfl fun fates choices => ?_
    simp only [Fleet.answer, hagent, hagrees.health]

/-- **A request in the world** gets a reply that it can get at a site. -/
theorem canEnd_ask (h : Mirrors w m x) {r : Request} {reply : r.Reply}
    (hrun : (answer scheduler r).alone w = (some reply, w')) :
    Onward w w' ∧ ∃ m' x', Mirrors w' m' x' ∧
      (w.instant.WellFormed → CanEnd (Control.ask r) m x reply m' x') := by
  cases r with
  | clock =>
      obtain ⟨rfl, rfl⟩ := Act.ended_inj hrun
      refine ⟨.refl w, m, x, h, fun hdated now => ?_⟩
      exact ⟨⟨w.instant, hdated⟩, fun later fates choices =>
        ⟨⟨w.instant, hdated⟩ :: later, fates, choices, (Program.exec_ask _ _ _).trans rfl⟩⟩
  | store op => exact canEnd_store h hrun
  | agents =>
      obtain ⟨rfl, rfl⟩ := Act.ended_inj hrun
      refine canEnd_look h rfl fun fates choices => ?_
      simp only [Fleet.answer, World.listAgents, h.directory]
  | connect name =>
      obtain ⟨rfl, rfl⟩ := Act.ended_inj hrun
      refine canEnd_look h rfl fun fates choices => ?_
      simp only [Fleet.answer, h.directory]
  | place spec candidates =>
      obtain ⟨rfl, rfl⟩ := Act.ended_inj hrun
      exact canEnd_place h spec candidates
  | call connection deadline action request => exact canEnd_call h hrun
  | health connection deadline => exact canEnd_health h hrun

end Requests

/-- **A program alone in a world** does what it can do at a site: whatever a program of the control
plane does in a world of bench agents while nothing else happens, it can do at the site with the
world's store and agents. -/
theorem canEnd_of_alone {α : Type} (p : Control α) {w w' : World} {m : Memory} {x : Fleet}
    (h : Mirrors w m x) {a : α}
    (hrun : (Act.ofProgram (answer scheduler) p).alone w = (some a, w')) :
    Onward w w' ∧ ∃ m' x', Mirrors w' m' x' ∧ (w'.instant.WellFormed → CanEnd p m x a m' x') := by
  induction p generalizing w m x with
  | done b =>
      obtain ⟨rfl, rfl⟩ := Act.ended_inj hrun
      exact ⟨.refl w, m, x, h, fun _ now => ⟨now, fun later fates choices =>
        ⟨later, fates, choices, rfl⟩⟩⟩
  | ask r next ih =>
      obtain ⟨reply, w₁, hfirst, hrun⟩ := Act.alone_bind_eq_some hrun
      obtain ⟨honward, m₁, x₁, h₁, hasked⟩ := canEnd_ask h hfirst
      obtain ⟨hlater, m', x', h', hrest⟩ := ih reply h₁ hrun
      refine ⟨honward.trans hlater, m', x', h', fun hdated now => ?_⟩
      obtain ⟨now₁, hask⟩ := hasked (wellFormed_of_le (honward.trans hlater).now hdated) now
      obtain ⟨now', hexec⟩ := hrest hdated now₁
      refine ⟨now', fun later fates choices => ?_⟩
      obtain ⟨later₁, fates₁, choices₁, hend⟩ := hexec later fates choices
      obtain ⟨later₀, fates₀, choices₀, hbegin⟩ := hask later₁ fates₁ choices₁
      refine ⟨later₀, fates₀, choices₀, ?_⟩
      have hstep := (Program.exec_ask _ r _).symm.trans hbegin
      simp only [Program.exec, hstep]
      exact hend

end FleetControl.Simulation
