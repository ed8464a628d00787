import FleetControl.Proofs.Store.Memory
import FleetControl.Proofs.Instant.Text
import FleetControl.Reconcile.Workflow

/-!
# Where control programs run

A control program runs at a site: a clock, a store in memory, and whatever answers its requests about
agents. Nothing is assumed of the clock but that it shows instants, and nothing of the agents' side
but that the instants in its reports are instants too, so a statement about all sites covers every
pattern of agent outcomes.

A store operation can break a program off, when the end of a tombstone's grace has no date. The parts
of a program that only concern agents cannot break off, and they leave the store alone.

* `Program.exec` — the run of a program that may break off;
* `Site.answer` — the replies at a site;
* `Control.Remote` and `Site.exec_remote` — programs that only concern agents.
-/

namespace FleetControl

/-! ## Runs that may break off -/

namespace Program

variable {ρ : Type} {Reply : ρ → Type} {α β σ : Type}

/-- The run of a program in which a reply may fail to come; the program then breaks off. -/
def exec (answer : (r : ρ) → σ → Option (Reply r) × σ) : Program ρ Reply α → σ → Option α × σ
  | done a, s => (some a, s)
  | ask r next, s =>
    match answer r s with
    | (some reply, s) => exec answer (next reply) s
    | (none, s) => (none, s)

theorem exec_pure (answer : (r : ρ) → σ → Option (Reply r) × σ) (a : α) (s : σ) :
    (pure a : Program ρ Reply α).exec answer s = (some a, s) := rfl

/-- A request on its own ends with the reply. -/
theorem exec_ask (answer : (r : ρ) → σ → Option (Reply r) × σ) (r : ρ) (s : σ) :
    (ask r done).exec answer s = answer r s := by
  simp only [exec]
  cases answer r s with
  | mk reply s => cases reply <;> rfl

/-- A second program goes on from the value and the state of the first. -/
theorem run_bind' (answer : (r : ρ) → σ → Reply r × σ) (p : Program ρ Reply α)
    (f : α → Program ρ Reply β) (s : σ) :
    (p >>= f).run answer s = (f (p.run answer s).1).run answer (p.run answer s).2 :=
  run_bind answer p f s

/-- A second program runs where the first one ended, unless that broke off. -/
theorem exec_bind (answer : (r : ρ) → σ → Option (Reply r) × σ) (p : Program ρ Reply α)
    (f : α → Program ρ Reply β) (s : σ) :
    (p >>= f).exec answer s = match p.exec answer s with
      | (some a, s) => (f a).exec answer s
      | (none, s) => (none, s) := by
  induction p generalizing s with
  | done a => rfl
  | ask r next ih =>
      change (ask r fun reply => (next reply).bind f).exec answer s = _
      simp only [exec]
      cases answer r s with
      | mk reply s =>
          cases reply with
          | none => rfl
          | some reply => exact ih reply s

/-- A run of two programs that ends, ends in both of them. -/
theorem exec_bind_eq_some {answer : (r : ρ) → σ → Option (Reply r) × σ} {p : Program ρ Reply α}
    {f : α → Program ρ Reply β} {s s'' : σ} {b : β}
    (h : (p >>= f).exec answer s = (some b, s'')) :
    ∃ a s', p.exec answer s = (some a, s') ∧ (f a).exec answer s' = (some b, s'') := by
  rw [exec_bind] at h
  split at h
  · next a s' hp => exact ⟨a, s', hp, h⟩
  · cases h

end Program

/-! ## Sites -/

/-- An instant that a clock can show. -/
abbrev Moment := { t : Instant // t.WellFormed }

/-- Where control programs run. -/
structure Site (τ : Type) where
  /-- What the clock shows. -/
  now : Moment
  /-- What the clock will show, every time that it is looked at. -/
  later : List Moment
  store : Memory
  /-- The state of the agents' side. -/
  side : τ

/-- A site at the epoch, with an empty store. -/
def Site.start {τ : Type} (side : τ) : Site τ := ⟨⟨⟨0, false⟩, by decide⟩, [], .new defaultGrace, side⟩

/-- What answers the requests about agents. -/
structure AgentSide (τ : Type) where
  answer : (r : Request) → τ → r.Reply × τ
  /-- The states that can come about. -/
  Proper : τ → Prop
  proper : ∀ r x, Proper x → Proper (answer r x).2
  /-- Reports hold instants. -/
  dated : ∀ c d action request x report, Proper x →
    (answer (.call c d action request) x).1 = some (.ok report) →
      ∀ t, report.lastRun = some t → t.WellFormed

/-- Every run of a program of the control plane keeps the agents' side as it can come about. -/
theorem AgentSide.run_proper {τ α : Type} (agents : AgentSide τ) (p : Control α) {x : τ}
    (h : agents.Proper x) : agents.Proper (p.run agents.answer x).2 := by
  induction p generalizing x with
  | done a => exact h
  | ask r next ih => exact ih _ (agents.proper r x h)

namespace Site

variable {τ : Type} {α β : Type}

/-- The clock goes on. -/
def tick (s : Site τ) : Site τ :=
  match s.later with
  | [] => s
  | t :: rest => { s with now := t, later := rest }

@[simp] theorem tick_store (s : Site τ) : s.tick.store = s.store := by
  unfold tick
  split <;> rfl

@[simp] theorem tick_side (s : Site τ) : s.tick.side = s.side := by
  unfold tick
  split <;> rfl

/-- The site after a store operation. -/
def stored {ω : Type} (s : Site τ) : Outcome ω × Memory → Option (Except StoreError ω) × Site τ
  | (.answer a, m) => (some (.ok a), { s with store := m })
  | (.refused e, m) => (some (.error e), { s with store := m })
  | (.undatable, m) => (none, { s with store := m })

/-- The replies at a site. -/
def answer (agents : AgentSide τ) : (r : Request) → Site τ → Option r.Reply × Site τ
  | .clock, s => (some s.tick.now.val, s.tick)
  | .store op, s => s.tick.stored (s.tick.store.apply s.tick.now op)
  | .agents, s =>
    let r := agents.answer .agents s.side
    (some r.1, { s with side := r.2 })
  | .connect agent, s =>
    let r := agents.answer (.connect agent) s.side
    (some r.1, { s with side := r.2 })
  | .place spec candidates, s =>
    let r := agents.answer (.place spec candidates) s.side
    (some r.1, { s with side := r.2 })
  | .call connection deadline action request, s =>
    let r := agents.answer (.call connection deadline action request) s.side
    (some r.1, { s with side := r.2 })
  | .health connection deadline, s =>
    let r := agents.answer (.health connection deadline) s.side
    (some r.1, { s with side := r.2 })

end Site

/-! ## Programs that only concern agents -/

namespace Control

variable {τ : Type} (answer : (r : Request) → τ → r.Reply × τ) (x : τ)

theorem run_agents : agents.run answer x = answer .agents x := rfl

theorem run_place (spec : PipelineSpec) (candidates : List AgentInfo) :
    (place spec candidates).run answer x = answer (.place spec candidates) x := rfl

theorem run_connect (agent : String) :
    (connect agent).run answer x = answer (.connect agent) x := rfl

end Control

/-- Whether a request is about agents. -/
def Request.remote : Request → Bool
  | .clock => false
  | .store _ => false
  | _ => true

/-- A program all of whose requests are about agents. -/
inductive Control.Remote {α : Type} : Control α → Prop where
  | done (a : α) : Remote (Program.done a)
  | ask {r : Request} {next : r.Reply → Control α} (hr : r.remote = true)
      (hnext : ∀ reply, Remote (next reply)) : Remote (Program.ask r next)

namespace Control.Remote

variable {α β : Type}

theorem pure (a : α) : Remote (Pure.pure a : Control α) := .done a

/-- A request about agents is such a program. -/
theorem request {r : Request} (h : r.remote = true) : Remote (Control.ask r) :=
  .ask h fun reply => .done reply

theorem bind {p : Control α} {f : α → Control β} (hp : Remote p) (hf : ∀ a, Remote (f a)) :
    Remote (p >>= f) := by
  induction hp with
  | done a => exact hf a
  | ask hr _ ih => exact .ask hr ih

end Control.Remote

/-- A request about agents does at a site what it does on the agents' side. -/
theorem Site.answer_remote {τ : Type} (agents : AgentSide τ) {r : Request} (h : r.remote = true)
    (s : Site τ) : Site.answer agents r s =
      (some (agents.answer r s.side).1, { s with side := (agents.answer r s.side).2 }) := by
  cases r with
  | clock => cases h
  | store op => cases h
  | _ => rfl

/-- **A program that only concerns agents** does at a site what it does on the agents' side. -/
theorem Site.exec_remote {τ α : Type} (agents : AgentSide τ) {p : Control α}
    (h : Control.Remote p) (s : Site τ) :
    p.exec (Site.answer agents) s =
      (some (p.run agents.answer s.side).1,
        { s with side := (p.run agents.answer s.side).2 }) := by
  induction h generalizing s with
  | done a => rfl
  | ask hr _ ih =>
      simp only [Program.exec, answer_remote agents hr]
      exact ih _ _

/-- What no reply of the agents' side changes, no program changes. -/
theorem Site.exec_keeps_side {τ α : Type} (agents : AgentSide τ) {P : τ → Prop}
    (hP : ∀ r x, P x → P (agents.answer r x).2) (p : Control α) {s : Site τ} (h : P s.side) :
    P (p.exec (Site.answer agents) s).2.side := by
  induction p generalizing s with
  | done a => exact h
  | ask r next ih =>
      have hreply : P (Site.answer agents r s).2.side := by
        cases r with
        | clock => simpa [Site.answer] using h
        | store op =>
            simp only [Site.answer]
            generalize s.tick.store.apply s.tick.now op = result
            obtain ⟨outcome, m⟩ := result
            cases outcome <;> simpa [Site.stored] using h
        | _ => exact hP _ _ h
      simp only [Program.exec]
      split
      · next reply s' heq =>
        rw [heq] at hreply
        exact ih reply hreply
      · next s' heq =>
        rw [heq] at hreply
        exact hreply

end FleetControl
