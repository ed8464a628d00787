import FleetControl.Proofs.Simulation.Alone
import FleetControl.Proofs.Station.Basic

/-!
# Rounds of observers alone in the simulated world

A plane with one handler of workflows, one cache and one store is a station. A pass of its informer or
a sweep of its cache that nothing interrupts ends in the simulated world as it can end at the station.

* `Houses` — a world in which one handler watches with one cache;
* `canEndRound_ask` — the replies to an observer's requests, callbacks included;
* `canEndRound_of_alone` — what a round does alone in a world it can do at the station.
-/

namespace FleetControl.Simulation

/-- A world in which one handler of workflows watches with one cache, and nothing stops it. -/
structure Houses (w : World) (scheduler loop cache : Nat) (deadline : Span) (handler : HandlerId)
    (c : Cache) (m : Memory) (x : Fleet) : Prop where
  mirrors : Mirrors w m x
  cached : w.caches.get? cache = some c
  working : w.handlers.get? handler = some (.workflows scheduler)
  others : ∀ id, id ≠ handler → w.handlers.get? id = none
  /-- The handler is kept by the plane. -/
  kept : w.plane.map (·.handler) = some handler
  watching : ∀ watcher ∈ c.watchers, watcher.handler = handler
  running : w.stopRequested loop = false
  deadline : w.deadline scheduler = deadline

/-- A round of an observer can end at a station with a value, and with another cache, another store
and other agents. What comes later is left open. -/
def CanEndRound {α : Type} (deadline : Span) (handler : HandlerId) (p : Watching α) (c : Cache)
    (m : Memory) (x : Fleet) (a : α) (c' : Cache) (m' : Memory) (x' : Fleet) : Prop :=
  ∀ now callbacks, ∃ now' callbacks', ∀ later fates choices, ∃ later' fates' choices',
    p.exec (Station.answer deadline handler)
        ⟨c, ⟨now, later', m, { x with fates := fates', choices := choices' }⟩, callbacks⟩ =
      (some a, ⟨c', ⟨now', later, m', { x' with fates, choices }⟩, callbacks'⟩)

variable {scheduler loop cache : Nat} {deadline : Span} {handler : HandlerId}

section Houses

variable {w w' : World} {c c' : Cache} {m m' : Memory} {x x' : Fleet}

/-- What programs of the control plane change is not what makes a round. -/
theorem Houses.onward (h : Houses w scheduler loop cache deadline handler c m x)
    (honward : Onward w w') (hmirrors : Mirrors w' m' x') :
    Houses w' scheduler loop cache deadline handler c m' x' := by
  have hcaches : w'.caches = w.caches := by rw [honward.rest]
  have hhandlers : w'.handlers = w.handlers := by rw [honward.rest]
  have hplane : w'.plane = w.plane := by rw [honward.rest]
  have hloops : w'.loops = w.loops := by rw [honward.rest]
  refine ⟨hmirrors, ?_, ?_, ?_, ?_, h.watching, ?_, ?_⟩
  · rw [hcaches]
    exact h.cached
  · rw [hhandlers]
    exact h.working
  · intro id hid
    rw [hhandlers]
    exact h.others id hid
  · rw [hplane]
    exact h.kept
  · unfold World.stopRequested
    rw [hloops]
    exact h.running
  · rw [honward.deadline]
    exact h.deadline

/-- Another version may be recorded in the cache. -/
theorem Houses.modifyCache (h : Houses w scheduler loop cache deadline handler c m x)
    {f : Cache → Cache} (hf : (f c).watchers = c.watchers) :
    Houses (w.modifyCache cache f) scheduler loop cache deadline handler (f c) m x := by
  refine ⟨⟨h.mirrors.backend, h.mirrors.faults, h.mirrors.directory, h.mirrors.agents⟩, ?_,
    h.working, h.others, h.kept, ?_, h.running, h.deadline⟩
  · simp only [World.modifyCache, Arena.get?_modify, if_true, h.cached, Option.map_some]
  · rw [hf]
    exact h.watching

/-- Which callbacks are under way is not what makes a round. -/
theorem Houses.callbacks (h : Houses w scheduler loop cache deadline handler c m x)
    (callbacks : List (Nat × HandlerId)) :
    Houses { w with callbacks } scheduler loop cache deadline handler c m x :=
  ⟨⟨h.mirrors.backend, h.mirrors.faults, h.mirrors.directory, h.mirrors.agents⟩, h.cached,
    h.working, h.others, h.kept, h.watching, h.running, h.deadline⟩

/-- All watchers are kept. -/
theorem Houses.handlerFor (h : Houses w scheduler loop cache deadline handler c m x)
    (key : String) : c.handlerFor w.handlerAlive key = c.handlerFor (fun _ => true) key := by
  have halive : w.handlerAlive handler = true := by
    simp [World.handlerAlive, h.kept]
  have hliving : c.living w.handlerAlive = c.living fun _ => true := by
    apply List.filter_congr
    intro watcher hwatcher
    rw [h.watching watcher hwatcher, halive]
  rw [Cache.handlerFor, hliving, Cache.handlerFor]

/-! ## Requests of an observer -/

/-- A request that only looks at the cache, or changes it. -/
theorem canEndRound_cache {r : WatchRequest} {reply : r.Reply}
    (hafter : Houses w' scheduler loop cache deadline handler c' m x) (hnow : w.now ≤ w'.now)
    (hreply : ∀ s : Station, s.cache = c →
      Station.answer deadline handler r s = (some reply, { s with cache := c' })) :
    w.now ≤ w'.now ∧ ∃ c' m' x', Houses w' scheduler loop cache deadline handler c' m' x' ∧
      (w'.instant.WellFormed →
        CanEndRound deadline handler (Watching.ask r) c m x reply c' m' x') :=
  ⟨hnow, c', m, x, hafter, fun _ now callbacks => ⟨now, callbacks, fun later fates choices =>
    ⟨later, fates, choices, (Program.exec_ask _ r _).trans (hreply _ rfl)⟩⟩⟩

/-- A request that is answered from the store. -/
theorem canEndRound_store (h : Houses w scheduler loop cache deadline handler c m x)
    (op : StoreOp) {found : Except StoreError op.Reply}
    (hrun : (answer scheduler (.store op)).alone w = (some found, w')) {r : WatchRequest}
    {reply : r.Reply} (hreply : ∀ (s : Station) (site : Site Fleet),
      Site.answer Fleet.side (.store op) s.site = (some found, site) →
        Station.answer deadline handler r s = (some reply, { s with site := site })) :
    w.now ≤ w'.now ∧ ∃ c' m' x', Houses w' scheduler loop cache deadline handler c' m' x' ∧
      (w'.instant.WellFormed →
        CanEndRound deadline handler (Watching.ask r) c m x reply c' m' x') := by
  obtain ⟨honward, m', x', hmirrors, hends⟩ := canEnd_ask h.mirrors hrun
  refine ⟨honward.now, c, m', x', h.onward honward hmirrors, fun hdated now callbacks => ?_⟩
  obtain ⟨now', hexec⟩ := hends (wellFormed_of_le honward.now hdated) now
  refine ⟨now', callbacks, fun later fates choices => ?_⟩
  obtain ⟨later', fates', choices', hend⟩ := hexec later fates choices
  have hsite := (Program.exec_ask _ (Request.store op) _).symm.trans hend
  exact ⟨later', fates', choices', (Program.exec_ask _ r _).trans (hreply _ _ hsite)⟩

/-- A callback, of the handler of workflows or of nobody. -/
theorem canEndRound_notify (h : Houses w scheduler loop cache deadline handler c m x)
    {watcher : HandlerId} {event : WatchEvent} {reply : Except Failure Unit}
    (hrun : (answerWatch loop cache (.notify watcher event)).alone w = (some reply, w')) :
    w.now ≤ w'.now ∧ ∃ c' m' x', Houses w' scheduler loop cache deadline handler c' m' x' ∧
      (w'.instant.WellFormed →
        CanEndRound deadline handler (Watching.ask (.notify watcher event)) c m x reply c' m' x') := by
  simp only [answerWatch, Act.bind_eq, Act.modify, Act.bind, Act.alone, Act.alone_bind] at hrun
  have hbegun := h.callbacks ((loop, watcher) :: w.callbacks)
  by_cases hwatcher : watcher = handler
  · subst hwatcher
    have hcallback : (callback watcher event).alone (w.beginCallback loop watcher) =
        (Act.ofProgram (answer scheduler) (handleWorkflowEvent deadline event)).alone
          (w.beginCallback loop watcher) := by
      simp only [callback, Act.alone, World.beginCallback, hbegun.working, control]
      rw [hbegun.deadline]
    rw [hcallback] at hrun
    cases hprogram : (Act.ofProgram (answer scheduler)
        (handleWorkflowEvent deadline event)).alone (w.beginCallback loop watcher) with
    | mk outcome w₁ =>
        rw [hprogram] at hrun
        cases outcome with
        | none => cases hrun
        | some outcome =>
            obtain ⟨rfl, rfl⟩ := Act.ended_inj hrun
            obtain ⟨honward, m', x', hmirrors, hends⟩ := canEnd_of_alone _ hbegun.mirrors hprogram
            refine ⟨honward.now, c, m', x', (hbegun.onward honward hmirrors).callbacks _,
              fun hdated now callbacks => ?_⟩
            obtain ⟨now', hexec⟩ := hends hdated now
            refine ⟨now', ⟨event, !outcome.isOk⟩ :: callbacks, fun later fates choices => ?_⟩
            obtain ⟨later', fates', choices', hend⟩ := hexec later fates choices
            refine ⟨later', fates', choices', (Program.exec_ask _ _ _).trans ?_⟩
            simp only [Station.answer, if_true, hend, Station.called]
  · have hcallback : (callback watcher event).alone (w.beginCallback loop watcher) =
        (some (.ok ()), w.beginCallback loop watcher) := by
      simp only [callback, Act.alone, World.beginCallback, h.others watcher hwatcher]
    rw [hcallback] at hrun
    obtain ⟨rfl, rfl⟩ := Act.ended_inj hrun
    refine canEndRound_cache (hbegun.callbacks _) (Nat.le_refl _) fun s hs => ?_
    simp only [Station.answer, if_neg hwatcher, ← hs]

/-- **A request of an observer in the world** gets a reply that it can get at a station. -/
theorem canEndRound_ask (h : Houses w scheduler loop cache deadline handler c m x)
    {r : WatchRequest} {reply : r.Reply}
    (hrun : (answerWatch loop cache r).alone w = (some reply, w')) :
    w.now ≤ w'.now ∧ ∃ c' m' x', Houses w' scheduler loop cache deadline handler c' m' x' ∧
      (w'.instant.WellFormed →
        CanEndRound deadline handler (Watching.ask r) c m x reply c' m' x') := by
  cases r with
  | cancelled =>
      obtain ⟨hvalue, rfl⟩ := Act.ended_inj hrun
      change w.stopRequested loop = reply at hvalue
      rw [h.running] at hvalue
      subst hvalue
      exact canEndRound_cache h (Nat.le_refl _) fun s hs => by rw [← hs]; rfl
  | scan scope =>
      refine canEndRound_store h (.list scope) hrun fun s site hsite => ?_
      simp only [Station.answer, hsite]
      rfl
  | present key =>
      obtain ⟨found, w₁, hfirst, hrun⟩ := Act.alone_bind_eq_some hrun
      obtain ⟨rfl, rfl⟩ := Act.ended_inj hrun
      refine canEndRound_store h (.getAny key) hfirst fun s site hsite => ?_
      simp only [Station.answer, hsite]
      rfl
  | cached key =>
      obtain ⟨hvalue, rfl⟩ := Act.ended_inj hrun
      change ((w.caches.get? cache).bind fun c => c.version key) = reply at hvalue
      rw [h.cached] at hvalue
      subst hvalue
      exact canEndRound_cache h (Nat.le_refl _) fun s hs => by rw [← hs]; rfl
  | record key version =>
      obtain ⟨-, rfl⟩ := Prod.mk.inj hrun
      exact canEndRound_cache (h.modifyCache rfl) (Nat.le_refl _) fun s hs => by rw [← hs]; rfl
  | forget key =>
      obtain ⟨-, rfl⟩ := Prod.mk.inj hrun
      exact canEndRound_cache (h.modifyCache rfl) (Nat.le_refl _) fun s hs => by rw [← hs]; rfl
  | cachedKeys =>
      obtain ⟨hvalue, rfl⟩ := Act.ended_inj hrun
      change ((w.caches.get? cache).map fun c => c.entries.keys).getD [] = reply at hvalue
      rw [h.cached] at hvalue
      subst hvalue
      exact canEndRound_cache h (Nat.le_refl _) fun s hs => by rw [← hs]; rfl
  | handlerFor key =>
      obtain ⟨hvalue, rfl⟩ := Act.ended_inj hrun
      change ((w.caches.get? cache).bind fun c => c.handlerFor w.handlerAlive key) = reply at hvalue
      rw [h.cached, Option.bind_some, h.handlerFor] at hvalue
      subst hvalue
      exact canEndRound_cache h (Nat.le_refl _) fun s hs => by rw [← hs]; rfl
  | notify watcher event => exact canEndRound_notify h hrun

end Houses

/-- **A round alone in a world** does what it can do at a station: whatever a round of an observer
does in a world in which one handler watches, while nothing else happens, it can do at the station
with the world's cache, store and agents. -/
theorem canEndRound_of_alone {α : Type} (p : Watching α) {w w' : World} {c : Cache} {m : Memory}
    {x : Fleet} (h : Houses w scheduler loop cache deadline handler c m x) {a : α}
    (hrun : (Act.ofProgram (answerWatch loop cache) p).alone w = (some a, w')) :
    w.now ≤ w'.now ∧ ∃ c' m' x', Houses w' scheduler loop cache deadline handler c' m' x' ∧
      (w'.instant.WellFormed → CanEndRound deadline handler p c m x a c' m' x') := by
  induction p generalizing w c m x with
  | done b =>
      obtain ⟨rfl, rfl⟩ := Act.ended_inj hrun
      exact ⟨Nat.le_refl _, c, m, x, h, fun _ now callbacks => ⟨now, callbacks,
        fun later fates choices => ⟨later, fates, choices, rfl⟩⟩⟩
  | ask r next ih =>
      obtain ⟨reply, w₁, hfirst, hrun⟩ := Act.alone_bind_eq_some hrun
      obtain ⟨hnow, c₁, m₁, x₁, h₁, hasked⟩ := canEndRound_ask h hfirst
      obtain ⟨hnow', c', m', x', h', hrest⟩ := ih reply h₁ hrun
      refine ⟨Nat.le_trans hnow hnow', c', m', x', h', fun hdated now callbacks => ?_⟩
      obtain ⟨now₁, callbacks₁, hask⟩ := hasked (wellFormed_of_le hnow' hdated) now callbacks
      obtain ⟨now', callbacks', hexec⟩ := hrest hdated now₁ callbacks₁
      refine ⟨now', callbacks', fun later fates choices => ?_⟩
      obtain ⟨later₁, fates₁, choices₁, hend⟩ := hexec later fates choices
      obtain ⟨later₀, fates₀, choices₀, hbegin⟩ := hask later₁ fates₁ choices₁
      refine ⟨later₀, fates₀, choices₀, ?_⟩
      have hstep := (Program.exec_ask _ r _).symm.trans hbegin
      simp only [Program.exec, hstep]
      exact hend

end FleetControl.Simulation
