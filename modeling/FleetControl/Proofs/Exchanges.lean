import FleetControl.Proofs.Asked
import FleetControl.Proofs.Site.Host

/-!
# Requests and their replies

What a run did to the outside can be told by its requests together with the replies that came. A call
to an agent names a connection only; that the agent of a name was called is told by the request right
before it, which was answered with the connection.

* `Program.exchanges` — the requests of a run that were answered, with their replies;
* `Program.exchanges_bind`, `Host.exchanges_remote` — the exchanges of composed programs, and at hosts;
* `Control.Calm` — exchanges without a call about a pipeline;
* `Control.Sent` — a call went to the agent of a name; `Control.sent_append_iff` takes it apart;
* `Control.deliveries` — the calls of a log, computed; `Control.mem_deliveries_iff` — what they are.
-/

namespace FleetControl

namespace Program

variable {ρ : Type} {Reply : ρ → Type} {α β σ : Type}

/-- The requests of a run that were answered, with their replies, in their order. -/
def exchanges (answer : (r : ρ) → σ → Option (Reply r) × σ) :
    Program ρ Reply α → σ → List ((r : ρ) × Reply r)
  | done _, _ => []
  | ask r next, s =>
    match answer r s with
    | (some reply, s) => ⟨r, reply⟩ :: exchanges answer (next reply) s
    | (none, _) => []

section

variable (answer : (r : ρ) → σ → Option (Reply r) × σ)

/-- A second program goes on where the first one ended, unless that broke off. -/
theorem exchanges_bind (p : Program ρ Reply α) (f : α → Program ρ Reply β) (s : σ) :
    (p >>= f).exchanges answer s = p.exchanges answer s ++ match p.exec answer s with
      | (some a, s) => (f a).exchanges answer s
      | (none, _) => [] := by
  induction p generalizing s with
  | done a => rfl
  | ask r next ih =>
      change (ask r fun reply => next reply >>= f).exchanges answer s = _
      simp only [exchanges, exec]
      rcases answer r s with ⟨_ | reply, s'⟩
      · rfl
      · exact congrArg (⟨r, reply⟩ :: ·) (ih reply s')

/-- What becomes of the result is no exchange. -/
theorem exchanges_bind_pure (p : Program ρ Reply α) (f : α → β) (s : σ) :
    (p >>= fun a => pure (f a)).exchanges answer s = p.exchanges answer s := by
  rw [exchanges_bind]
  rcases p.exec answer s with ⟨_ | a, s'⟩ <;> exact List.append_nil _

theorem exec_bind_pure (p : Program ρ Reply α) (f : α → β) (s : σ) :
    (p >>= fun a => pure (f a)).exec answer s =
      ((p.exec answer s).1.map f, (p.exec answer s).2) := by
  rw [exec_bind]
  rcases p.exec answer s with ⟨_ | a, s'⟩ <;> rfl

/-- Every exchange begins with a request that was asked. -/
theorem asked_of_mem_exchanges (p : Program ρ Reply α) (s : σ) :
    ∀ e ∈ p.exchanges answer s, e.1 ∈ p.asked answer s := by
  induction p generalizing s with
  | done a =>
      intro e he
      cases he
  | ask r next ih =>
      simp only [exchanges, asked]
      rcases answer r s with ⟨_ | reply, s'⟩
      · intro e he
        cases he
      · rw [List.forall_mem_cons]
        exact ⟨List.mem_cons_self, fun e he => List.mem_cons_of_mem _ (ih reply s' e he)⟩

end

/-! ## Where every request is answered -/

/-- Replies that always come. -/
def always (answer : (r : ρ) → σ → Reply r × σ) (r : ρ) (s : σ) : Option (Reply r) × σ :=
  (some (answer r s).1, (answer r s).2)

variable (answer : (r : ρ) → σ → Reply r × σ)

theorem exec_always (p : Program ρ Reply α) (s : σ) :
    p.exec (always answer) s = (some (p.run answer s).1, (p.run answer s).2) := by
  induction p generalizing s with
  | done a => rfl
  | ask r next ih => exact ih _ _

/-- A second program goes on where the first one ended. -/
theorem exchanges_bind_always (p : Program ρ Reply α) (f : α → Program ρ Reply β) (s : σ) :
    (p >>= f).exchanges (always answer) s = p.exchanges (always answer) s ++
      (f (p.run answer s).1).exchanges (always answer) (p.run answer s).2 := by
  rw [exchanges_bind, exec_always]

end Program

/-- A request with its reply. -/
abbrev Exchange := (r : Request) × r.Reply

/-! ## Requests about agents -/

namespace Control

section

variable {τ : Type} (answer : (r : Request) → τ → r.Reply × τ) (x : τ)

theorem exchanges_agents :
    agents.exchanges (Program.always answer) x = [⟨.agents, (answer .agents x).1⟩] := rfl

theorem exchanges_place (spec : PipelineSpec) (candidates : List AgentInfo) :
    (place spec candidates).exchanges (Program.always answer) x =
      [⟨.place spec candidates, (answer (.place spec candidates) x).1⟩] := rfl

theorem exchanges_connect (agent : String) :
    (connect agent).exchanges (Program.always answer) x =
      [⟨.connect agent, (answer (.connect agent) x).1⟩] := rfl

end

end Control

/-! ## Calls about pipelines -/

/-- Whether a request is a call about a pipeline. -/
def Request.isCall : Request → Bool
  | .call .. => true
  | _ => false

namespace Control

/-- No agent is called about a pipeline. -/
def Calm (log : List Exchange) : Prop := ∀ e ∈ log, e.1.isCall = false

theorem Calm.nil : Calm [] := fun e he => by cases he

theorem Calm.cons {e : Exchange} {log : List Exchange} (he : e.1.isCall = false) (h : Calm log) :
    Calm (e :: log) :=
  List.forall_mem_cons.2 ⟨he, h⟩

theorem Calm.append {log log' : List Exchange} (h : Calm log) (h' : Calm log') :
    Calm (log ++ log') :=
  List.forall_mem_append.2 ⟨h, h'⟩

/-- A program that calls no agent about a pipeline has calm exchanges. -/
theorem calm_of_only {σ α : Type} {p : Control α} (h : p.Only fun r => r.isCall = false)
    (answer : (r : Request) → σ → Option r.Reply × σ) (s : σ) : Calm (p.exchanges answer s) :=
  fun e he => h.asked answer s e.1 (p.asked_of_mem_exchanges answer s e he)

/-- The agent of a name was called about a pipeline, and this was its reply: the directory gave a
connection for the name, and the next request was a call on that connection. -/
def Sent (log : List Exchange) (agent : String) (action : PipelineAction)
    (request : PipelineRequest) (reply : Option (Except AgentError PipelineReport)) : Prop :=
  ∃ connection deadline, [⟨.connect agent, some connection⟩,
    ⟨.call connection deadline action request, reply⟩] <:+: log

variable {log log' : List Exchange} {agent : String} {action : PipelineAction}
variable {request : PipelineRequest} {reply : Option (Except AgentError PipelineReport)}

theorem Calm.not_sent (h : Calm log) : ¬ Sent log agent action request reply := by
  rintro ⟨connection, deadline, hin⟩
  have hcall := h _ (hin.subset (List.mem_cons_of_mem _ List.mem_cons_self))
  cases hcall

/-- What was sent in a part was sent in the whole. -/
theorem Sent.mono (h : Sent log agent action request reply) (hin : log <:+: log') :
    Sent log' agent action request reply := by
  obtain ⟨connection, deadline, hsent⟩ := h
  exact ⟨connection, deadline, hsent.trans hin⟩

/-- A call that was sent: to whom, what about, and the reply. -/
structure Delivery where
  agent : String
  action : PipelineAction
  request : PipelineRequest
  reply : Option (Except AgentError PipelineReport)
  deriving DecidableEq

/-- The name that was looked up, and the connection that the directory gave. -/
def connected? : Exchange → Option (String × Connection)
  | ⟨.connect name, found⟩ => Option.map (fun connection => (name, connection)) found
  | _ => none

/-- The connection that a call went over, and the call if it was one to an agent of a name. -/
def called? (name : String) : Exchange → Option (Connection × Delivery)
  | ⟨.call connection _ action request, reply⟩ => some (connection, ⟨name, action, request, reply⟩)
  | _ => none

/-- The call that two successive exchanges make up, if they do. -/
def delivery? (e e' : Exchange) : Option Delivery := do
  let (name, connection) ← connected? e
  let (connection', delivery) ← called? name e'
  if connection = connection' then some delivery else none

/-- The calls that were sent, in their order. -/
def deliveries : List Exchange → List Delivery
  | e :: e' :: rest => (delivery? e e').toList ++ deliveries (e' :: rest)
  | _ => []

theorem connected?_eq_some_iff {e : Exchange} {name : String} {connection : Connection} :
    connected? e = some (name, connection) ↔ e = ⟨.connect name, some connection⟩ := by
  constructor
  · intro h
    unfold connected? at h
    split at h
    · obtain ⟨found, rfl, hfound⟩ := Option.map_eq_some_iff.1 h
      cases hfound
      rfl
    · cases h
  · rintro rfl
    rfl

theorem called?_eq_some_iff {e : Exchange} {name : String} {connection : Connection}
    {d : Delivery} : called? name e = some (connection, d) ↔ d.agent = name ∧
      ∃ deadline, e = ⟨.call connection deadline d.action d.request, d.reply⟩ := by
  constructor
  · intro h
    unfold called? at h
    split at h
    · cases h
      exact ⟨rfl, _, rfl⟩
    · cases h
  · rintro ⟨rfl, deadline, rfl⟩
    rfl

theorem delivery?_eq_some_iff {e e' : Exchange} {d : Delivery} : delivery? e e' = some d ↔
    ∃ connection deadline, e = ⟨.connect d.agent, some connection⟩ ∧
      e' = ⟨.call connection deadline d.action d.request, d.reply⟩ := by
  constructor
  · intro h
    obtain ⟨⟨name, connection⟩, hconnected, h⟩ := Option.bind_eq_some_iff.1 h
    obtain ⟨⟨connection', d'⟩, hcalled, h⟩ := Option.bind_eq_some_iff.1 h
    simp only at h
    split at h
    · next heq =>
      cases h
      obtain ⟨rfl, deadline, rfl⟩ := called?_eq_some_iff.1 hcalled
      subst heq
      exact ⟨connection, deadline, connected?_eq_some_iff.1 hconnected, rfl⟩
    · cases h
  · rintro ⟨connection, deadline, rfl, rfl⟩
    exact if_pos rfl

/-- **The calls that were sent can be read off.** -/
theorem mem_deliveries_iff :
    (⟨agent, action, request, reply⟩ : Delivery) ∈ deliveries log ↔
      Sent log agent action request reply := by
  induction log with
  | nil => exact iff_of_false (by simp [deliveries]) Calm.nil.not_sent
  | cons e rest ih =>
      cases rest with
      | nil =>
          refine iff_of_false (by simp [deliveries]) ?_
          rintro ⟨connection, deadline, hin⟩
          simpa using hin.length_le
      | cons e' rest =>
          rw [deliveries, List.mem_append, ih, Option.mem_toList, delivery?_eq_some_iff]
          unfold Sent
          simp only [@List.infix_cons_iff _ _ e (e' :: rest), List.cons_prefix_cons,
            List.nil_prefix, and_true, exists_or, @eq_comm _ _ e, @eq_comm _ _ e']

instance : Decidable (Sent log agent action request reply) :=
  decidable_of_iff _ mem_deliveries_iff

/-- Exchanges that do not begin with a call. -/
def Opens (log : List Exchange) : Prop := ∀ e rest, log = e :: rest → e.1.isCall = false

theorem Calm.opens (h : Calm log) : Opens log := by
  rintro e rest rfl
  exact h e List.mem_cons_self

theorem Opens.append (h : Opens log) (h' : Opens log') : Opens (log ++ log') := by
  cases log with
  | nil => exact h'
  | cons e₀ log₀ =>
      rintro e rest heq
      obtain ⟨rfl, -⟩ := List.cons.inj heq
      exact h e₀ log₀ rfl

/-- **A call was sent in one part or in the other**, because the second does not begin with one. -/
theorem sent_append_iff (h : Opens log') : Sent (log ++ log') agent action request reply ↔
    Sent log agent action request reply ∨ Sent log' agent action request reply := by
  constructor
  · rintro ⟨connection, deadline, hin⟩
    induction log with
    | nil => exact .inr ⟨connection, deadline, hin⟩
    | cons e rest ih =>
        rcases List.infix_cons_iff.1 hin with hprefix | hlater
        · obtain ⟨rfl, hnext⟩ := List.cons_prefix_cons.1 hprefix
          cases rest with
          | nil =>
              -- The call would be the first exchange of the second part.
              obtain ⟨more, hmore⟩ := hnext
              cases h _ more hmore.symm
          | cons e' rest' =>
              obtain ⟨rfl, -⟩ := List.cons_prefix_cons.1 hnext
              exact .inl ⟨connection, deadline, [], rest', rfl⟩
        · rcases ih hlater with hsent | hsent
          · exact .inl (hsent.mono (List.suffix_cons e rest).isInfix)
          · exact .inr hsent
  · rintro (hsent | hsent)
    · exact hsent.mono (List.prefix_append _ _).isInfix
    · exact hsent.mono (List.suffix_append _ _).isInfix

/-- Nothing that was sent was sent in calm exchanges before or after. -/
theorem sent_amid_iff {before after : List Exchange} (hbefore : Calm before) (hopens : Opens log)
    (hafter : Calm after) : Sent (before ++ (log ++ after)) agent action request reply ↔
      Sent log agent action request reply := by
  rw [sent_append_iff (hopens.append hafter.opens), or_iff_right hbefore.not_sent,
    sent_append_iff hafter.opens, or_iff_left hafter.not_sent]

/-- A program that calls nobody after another one adds calm exchanges to those of the first. -/
theorem exchanges_bind_calm {σ α β : Type} (answer : (r : Request) → σ → Option r.Reply × σ)
    (p : Control α) {f : α → Control β} {s : σ}
    (hcalm : ∀ a s', Calm ((f a).exchanges answer s')) :
    ∃ after, Calm after ∧ (p >>= f).exchanges answer s = p.exchanges answer s ++ after := by
  refine ⟨_, ?_, Program.exchanges_bind answer p f s⟩
  rcases p.exec answer s with ⟨_ | a, s'⟩
  · exact .nil
  · exact hcalm a s'

/-- A single call after calm exchanges is the only one that was sent. -/
theorem sent_single_iff (h : Calm log) {name : String} {connection : Connection} {deadline : Span}
    {action' : PipelineAction} {request' : PipelineRequest}
    {reply' : Option (Except AgentError PipelineReport)} :
    Sent (log ++ [⟨.connect name, some connection⟩,
        ⟨.call connection deadline action' request', reply'⟩]) agent action request reply ↔
      agent = name ∧ action = action' ∧ request = request' ∧ reply = reply' := by
  have hopens : Opens [⟨.connect name, some connection⟩,
      ⟨.call connection deadline action' request', reply'⟩] := by
    rintro e rest heq
    obtain ⟨rfl, -⟩ := List.cons.inj heq
    rfl
  rw [sent_append_iff hopens, or_iff_right h.not_sent]
  constructor
  · rintro ⟨c, d, hin⟩
    cases hin.eq_of_length rfl
    exact ⟨rfl, rfl, rfl, rfl⟩
  · rintro ⟨rfl, rfl, rfl, rfl⟩
    exact ⟨connection, deadline, List.infix_refl _⟩

end Control

/-- **A program that only concerns agents** exchanges at a host what it exchanges on the agents'
side. -/
theorem Host.exchanges_remote {τ α : Type} (agents : AgentSide τ) {p : Control α}
    (h : Control.Remote p) (s : Host τ) :
    p.exchanges (answer agents) s = p.exchanges (Program.always agents.answer) s.side := by
  induction h generalizing s with
  | done a => rfl
  | @ask r next hr _ ih =>
      cases r with
      | clock => cases hr
      | store op => cases hr
      | _ => exact congrArg (_ :: ·) (ih _ _)

end FleetControl
