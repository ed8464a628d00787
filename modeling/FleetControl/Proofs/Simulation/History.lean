import FleetControl.Proofs.Fleet.Calls
import FleetControl.Proofs.Simulation.Alone

/-!
# Calls in the simulated world

Between two calls of the reconciler the agents of a world may be set to other delays and refusals, and
time may go on. A history of such calls is one of calls at a site, so what holds after any calls at a
site holds in the world.

* `Made` — calls that were made in a world, one after the other;
* `after_of_made` — they are calls at a site;
* `on_record_of_made` — a bench agent that holds a pipeline is on record in the world's store.
-/

namespace FleetControl.Simulation

/-- A world is set for the next call: agents may be slow or refuse, and time may have gone on. -/
structure Resets (scheduler : Nat) (w w' : World) : Prop where
  now : w.now ≤ w'.now
  deadline : w'.deadline scheduler = w.deadline scheduler
  mirrors : ∀ m x, Mirrors w m x → Mirrors w' m x

/-- Calls of the reconciler are made in a world, one after the other, each alone. -/
inductive Made (scheduler : Nat) : List Call → World → World → Prop where
  | none (w : World) : Made scheduler [] w w
  | reset {calls : List Call} {w w' w'' : World} (h : Resets scheduler w w')
      (rest : Made scheduler calls w' w'') : Made scheduler calls w w''
  | call {call : Call} {calls : List Call} {w w' w'' : World}
      {outcome : Except ControlError ReconcileReport}
      (h : (control scheduler call.program).alone w = (some outcome, w'))
      (rest : Made scheduler calls w' w'') : Made scheduler (call :: calls) w w''

/-- **Calls in a world are calls at a site**, for some readings of the clock, fates of the calls to
agents and choices of placement. -/
theorem after_of_made {scheduler : Nat} {calls : List Call} {w w' : World}
    (h : Made scheduler calls w w') {m : Memory} {x : Fleet} (hmirrors : Mirrors w m x) :
    w.now ≤ w'.now ∧ ∃ m' x', Mirrors w' m' x' ∧ (w'.instant.WellFormed → ∀ now, ∃ now',
      ∀ later fates choices, ∃ later' fates' choices',
        Site.after (w.deadline scheduler)
            ⟨now, later', m, { x with fates := fates', choices := choices' }⟩ calls =
          ⟨now', later, m', { x' with fates, choices }⟩) := by
  induction h generalizing m x with
  | none w =>
      exact ⟨Nat.le_refl _, m, x, hmirrors, fun _ now => ⟨now, fun later fates choices =>
        ⟨later, fates, choices, rfl⟩⟩⟩
  | reset hset _ ih =>
      obtain ⟨hnow, m', x', hafter, hexec⟩ := ih (hset.mirrors m x hmirrors)
      rw [hset.deadline] at hexec
      exact ⟨Nat.le_trans hset.now hnow, m', x', hafter, hexec⟩
  | call hcall _ ih =>
      obtain ⟨honward, m₁, x₁, hbetween, hends⟩ := canEnd_of_alone _ hmirrors hcall
      obtain ⟨hnow, m', x', hafter, hexec⟩ := ih hbetween
      rw [honward.deadline] at hexec
      refine ⟨Nat.le_trans honward.now hnow, m', x', hafter, fun hdated now => ?_⟩
      obtain ⟨now₁, hfirst⟩ := hends (wellFormed_of_le hnow hdated) now
      obtain ⟨now', hrest⟩ := hexec hdated now₁
      refine ⟨now', fun later fates choices => ?_⟩
      obtain ⟨later₁, fates₁, choices₁, hend⟩ := hrest later fates choices
      obtain ⟨later₀, fates₀, choices₀, hbegin⟩ := hfirst later₁ fates₁ choices₁
      refine ⟨later₀, fates₀, choices₀, ?_⟩
      rw [Site.after, List.foldl_cons, hbegin]
      exact hend

/-- **Holders are on record in the world.** If no agent held anything and there were no documents
before the calls, the document in the world's store names every bench agent that holds a pipeline. -/
theorem on_record_of_made {scheduler : Nat} {calls : List Call} {w w' : World}
    (h : Made scheduler calls w w') (hdated : w'.instant.WellFormed) {m : Memory} {x : Fleet}
    (hmirrors : Mirrors w m x) (honest : x.Honest)
    (idle : ∀ id a, x.agents.get? id = some a → ∀ v p, a.find? v p = none)
    (blank : ∀ v, m.entries.get? (statusKey v) = none) :
    ∃ m', w'.backend = .memory m' ∧ ∀ name r a v p, w'.directory.get? name = some r →
      w'.agents.get? r.agent = some (.bench a) → (a.find? v p).isSome → ∃ e doc,
        m'.live? w'.instant (statusKey v) = some e ∧ WorkflowStatus.decode? e.data = some doc ∧
          doc.Names name p := by
  obtain ⟨-, m', x', hafter, hexec⟩ := after_of_made h hmirrors
  obtain ⟨now', hexec⟩ := hexec hdated ⟨w'.instant, hdated⟩
  obtain ⟨later', fates', choices', hend⟩ := hexec [] [] []
  have hfresh : Site.Fresh
      ⟨⟨w'.instant, hdated⟩, later', m, { x with fates := fates', choices := choices' }⟩ :=
    ⟨honest, idle, blank⟩
  have haccounted := hfresh.accounted.after (w.deadline scheduler) calls
  rw [hend] at haccounted
  refine ⟨m', hafter.backend, fun name r a v p hname hagent hholds => ?_⟩
  rw [hafter.directory] at hname
  -- The agent of the world holds what the agent of the fleet holds.
  obtain ⟨hnone, -⟩ | ⟨b, c, hb, hc, hagrees⟩ := hafter.agents r.agent
  · rw [hagent] at hnone
    cases hnone
  · obtain rfl := SimulatedAgent.bench.inj (Option.some.inj (hagent.symm.trans hb))
    have hheld : ({ x' with fates := [], choices := [] } : Fleet).Holds name v p := by
      simp only [Fleet.Holds, Fleet.held, Fleet.agent?, hname, Option.bind_some, hc,
        BenchAgent.find?, ← hagrees.held]
      exact hholds
    obtain ⟨doc, hdoc, hnames⟩ := haccounted.names hheld
    obtain ⟨e, hlive, hdecode⟩ := Option.bind_eq_some_iff.1 hdoc
    refine ⟨e, doc, ?_, hdecode, hnames⟩
    rw [← hlive]
    exact (haccounted.lasting v).live?_eq _ _

end FleetControl.Simulation
