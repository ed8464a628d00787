import FleetControl.Proofs.Simulation.Alone
import FleetControl.Proofs.Simulation.Steady

/-!
# Observers alone in the simulated world

Statements about observers are about lookouts, where what becomes of reads and callbacks is written
down beforehand. In the simulated world it comes about: a fault was injected or not, and a callback is
a program of its own, which asks agents, takes time and works on the store. A job that nothing
interrupts ends in the world as it ends at a lookout with the world's store and the job's cache.

* `World.Shows` — a world shows a controller a lookout;
* `shows_after` — a request in the world is answered as it can be answered at the lookout;
* `exec_of_alone` — what an observer does alone in a world it does at the lookout.
-/

namespace FleetControl.Simulation

/-- A program of the control plane serves alone as well as step by step. -/
theorem Act.Steady.alone {α : Type} {act : Act World α} {w : World} (h : act.Steady Served w) :
    Served w (act.alone w).2 := by
  induction act generalizing w with
  | done a => exact .refl w
  | crash => exact .refl w
  | read next ih => exact ih w h
  | write change next ih => exact h.1.trans (ih h.2)
  | sleep millis next ih =>
      have hlater : Served w { w with now := w.now + millis } := .of_rest rfl rfl
      exact hlater.trans (ih (h _))
  | await ready next ih =>
      unfold Act.alone
      split
      · exact ih (h w)
      · exact .refl w

/-- The handlers that are kept are the same. -/
theorem Served.handlerAlive {w w' : World} (h : Served w w') : w'.handlerAlive = w.handlerAlive := by
  rw [h.rest]
  rfl

/-- A callback comes back, and nothing tells of it but what it did. -/
theorem Served.endCallback {w w' : World} {loop : Nat} {handler : HandlerId}
    (h : Served (w.beginCallback loop handler) w') (hquiet : ∀ c ∈ w.callbacks, c.1 ≠ loop) :
    Served w (w'.endCallback loop) := by
  have hcallbacks : w'.callbacks = (loop, handler) :: w.callbacks := by
    rw [h.rest]
    rfl
  have hfilter : (w'.callbacks.filter fun c => c.1 != loop) = w.callbacks := by
    rw [hcallbacks]
    simpa using hquiet
  refine ⟨h.store, ?_⟩
  unfold World.endCallback
  rw [hfilter]
  exact congrArg (fun world : World => { world with callbacks := w.callbacks }) h.rest

/-- A world shows a controller a lookout: its cache, the handlers that are kept and the store. The
controller is not asked to stop and waits for no callback. -/
structure World.Shows (w : World) (loop cache : Nat) (L : Lookout) : Prop where
  cache : w.caches.get? cache = some L.cache
  alive : w.handlerAlive = L.alive
  store : w.backend = L.store
  going : w.stopRequested loop = false
  quiet : ∀ c ∈ w.callbacks, c.1 ≠ loop

variable {w w' : World} {loop cache : Nat} {L : Lookout}

namespace World.Shows

/-- What the requests of the control plane do shows in the store only. -/
theorem served (h : w.Shows loop cache L) (hserved : Served w w') {L' : Lookout}
    (hcache : L'.cache = L.cache) (halive : L'.alive = L.alive) (hstore : L'.store = w'.backend) :
    w'.Shows loop cache L' := by
  refine ⟨?_, (hserved.handlerAlive.trans h.alive).trans halive.symm, hstore.symm, ?_, ?_⟩
  · rw [hserved.rest, hcache]
    exact h.cache
  · rw [hserved.rest]
    exact h.going
  · rw [hserved.rest]
    exact h.quiet

/-- The cache of the job changes. -/
theorem modifyCache (h : w.Shows loop cache L) (f : Cache → Cache) :
    (w.modifyCache cache f).Shows loop cache { L with cache := f L.cache } := by
  refine ⟨?_, h.alive, h.store, h.going, h.quiet⟩
  simp only [World.modifyCache, Arena.get?_modify, if_true, h.cache, Option.map_some]

/-- A look at the world is a look at the lookout. -/
theorem look (h : w.Shows loop cache L) {r : WatchRequest} {seen reply : r.Reply}
    (hsame : seen = reply) (hlook : ∀ L' : Lookout, L'.cache = L.cache → L'.alive = L.alive →
      Lookout.answer r L' = (some reply, L')) :
    ∃ L', w.Shows loop cache L' ∧ ∀ readings reactions, ∃ readings' reactions',
      Lookout.answer r { L with readings := readings', reactions := reactions' } =
        (some seen, { L' with readings, reactions }) :=
  ⟨L, h, fun readings reactions => ⟨readings, reactions, hsame ▸ hlook _ rfl rfl⟩⟩

end World.Shows

/-- **A read of the store** comes at once and may meet a fault. -/
theorem shows_read (h : w.Shows loop cache L) {op : StoreOp} {reply : Except StoreError op.Reply}
    (hrun : (storeOp op).alone w = (some reply, w')) :
    ∃ L', w'.Shows loop cache L' ∧ ∀ readings reactions, ∃ readings',
      Lookout.read { L with readings := readings', reactions } op =
        (some reply, { L' with readings, reactions }) := by
  have hserved : Served w w' := by
    have hserved := (steady_storeOp (w := w) op).alone
    rwa [hrun] at hserved
  refine ⟨{ L with now := w.instant, store := w'.backend }, h.served hserved rfl rfl rfl,
    fun readings reactions => ?_⟩
  simp only [storeOp, Act.alone] at hrun
  split at hrun
  · next kind hfault =>
    obtain ⟨rfl, rfl⟩ := Act.ended_inj hrun
    refine ⟨⟨[], w.instant, some (kind.error op)⟩ :: readings, ?_⟩
    have hstore : w.backend = L.store := h.store
    simp only [Lookout.read, Lookout.reading, Lookout.awaited, List.headD_cons, List.tail_cons,
      List.foldl_nil, hstore]
  · refine ⟨⟨[], w.instant, none⟩ :: readings, ?_⟩
    simp only [Lookout.read, Lookout.reading, Lookout.awaited, List.headD_cons, List.tail_cons,
      List.foldl_nil, ← h.store]
    generalize w.backend.apply w.instant op = result at hrun
    obtain ⟨outcome, store⟩ := result
    cases outcome with
    | undatable => cases hrun
    | answer a =>
        obtain ⟨rfl, rfl⟩ := Act.ended_inj hrun
        rfl
    | refused e =>
        obtain ⟨rfl, rfl⟩ := Act.ended_inj hrun
        rfl

/-- **A callback** is a program of its own, and comes back in the end. -/
theorem shows_notify (h : w.Shows loop cache L) {handler : HandlerId} {event : WatchEvent}
    {outcome : Except Failure Unit}
    (hrun : (answerWatch loop cache (.notify handler event)).alone w = (some outcome, w')) :
    ∃ L', w'.Shows loop cache L' ∧ ∀ readings reactions, ∃ reactions',
      Lookout.answer (.notify handler event) { L with readings, reactions := reactions' } =
        (some outcome, { L' with readings, reactions }) := by
  have hserved : Served w (((callback handler event).alone (w.beginCallback loop handler)).2.endCallback
      loop) := (steady_callback handler event).alone.endCallback h.quiet
  simp only [answerWatch, Act.modify, Act.bind_eq, Act.bind, Act.alone, Act.alone_bind] at hrun
  generalize (callback handler event).alone (w.beginCallback loop handler) = called at hserved hrun
  obtain ⟨ended, world⟩ := called
  cases ended with
  | none => cases hrun
  | some result =>
      obtain ⟨rfl, rfl⟩ := Act.ended_inj hrun
      obtain ⟨moves, hmoves⟩ := hserved.store
      rw [h.store] at hmoves
      refine ⟨{ L with
        store := (world.endCallback loop).backend
        log := ⟨handler, event, !result.isOk, L.cache.entries, L.store⟩ :: L.log },
        h.served hserved rfl rfl rfl, fun readings reactions => ⟨⟨moves, result⟩ :: reactions, ?_⟩⟩
      simp only [Lookout.answer, Lookout.told, Lookout.reaction, List.headD_cons, List.tail_cons,
        hmoves]
      rfl

/-- **A request in the world** is answered as it can be answered at the lookout, whatever is to come
later. -/
theorem shows_after (h : w.Shows loop cache L) {r : WatchRequest} {reply : r.Reply}
    (hrun : (answerWatch loop cache r).alone w = (some reply, w')) :
    ∃ L', w'.Shows loop cache L' ∧ ∀ readings reactions, ∃ readings' reactions',
      Lookout.answer r { L with readings := readings', reactions := reactions' } =
        (some reply, { L' with readings, reactions }) := by
  cases r with
  | cancelled =>
      obtain ⟨rfl, rfl⟩ := Act.ended_inj hrun
      exact h.look (r := .cancelled) h.going fun _ _ _ => rfl
  | scan scope =>
      obtain ⟨L', h', hread⟩ := shows_read h hrun
      refine ⟨L', h', fun readings reactions => ?_⟩
      obtain ⟨readings', hread⟩ := hread readings reactions
      exact ⟨readings', reactions, hread⟩
  | present key =>
      obtain ⟨found, world, hread, hrun⟩ := Act.alone_bind_eq_some hrun
      obtain ⟨rfl, rfl⟩ := Act.ended_inj hrun
      obtain ⟨L', h', hread⟩ := shows_read h hread
      refine ⟨L', h', fun readings reactions => ?_⟩
      obtain ⟨readings', hread⟩ := hread readings reactions
      refine ⟨readings', reactions, ?_⟩
      simp only [Lookout.answer, hread]
      rfl
  | cached key =>
      obtain ⟨rfl, rfl⟩ := Act.ended_inj hrun
      have hseen : ((w.caches.get? cache).bind fun c => c.version key) = L.cache.version key := by
        rw [h.cache, Option.bind_some]
      exact h.look (r := .cached key) hseen fun _ hcache _ => by rw [← hcache]; rfl
  | record key version =>
      obtain ⟨-, rfl⟩ := Prod.mk.inj hrun
      exact ⟨_, h.modifyCache _, fun readings reactions => ⟨readings, reactions, rfl⟩⟩
  | forget key =>
      obtain ⟨-, rfl⟩ := Prod.mk.inj hrun
      exact ⟨_, h.modifyCache _, fun readings reactions => ⟨readings, reactions, rfl⟩⟩
  | cachedKeys =>
      obtain ⟨rfl, rfl⟩ := Act.ended_inj hrun
      have hseen : ((w.caches.get? cache).map fun c => c.entries.keys).getD [] =
          L.cache.entries.keys := by rw [h.cache, Option.map_some, Option.getD_some]
      exact h.look (r := .cachedKeys) hseen fun _ hcache _ => by rw [← hcache]; rfl
  | handlerFor key =>
      obtain ⟨rfl, rfl⟩ := Act.ended_inj hrun
      have hseen : ((w.caches.get? cache).bind fun c => c.handlerFor w.handlerAlive key) =
          L.cache.handlerFor L.alive key := by rw [h.cache, Option.bind_some, h.alive]
      exact h.look (r := .handlerFor key) hseen fun _ hcache halive => by
        rw [← hcache, ← halive]; rfl
  | notify handler event =>
      obtain ⟨L', h', hcalled⟩ := shows_notify h hrun
      refine ⟨L', h', fun readings reactions => ?_⟩
      obtain ⟨reactions', hcalled⟩ := hcalled readings reactions
      exact ⟨readings, reactions', hcalled⟩

/-- **An observer alone in a world** does what it can do at a lookout: whatever comes of its job in
the world comes of it at the lookout that the world shows, for some fates of reads and callbacks. What
comes later is left open. -/
theorem exec_of_alone {α : Type} (p : Watching α) (h : w.Shows loop cache L) {a : α}
    (hrun : (Act.ofProgram (answerWatch loop cache) p).alone w = (some a, w')) :
    ∃ L', w'.Shows loop cache L' ∧ ∀ readings reactions, ∃ readings' reactions',
      p.exec Lookout.answer { L with readings := readings', reactions := reactions' } =
        (some a, { L' with readings, reactions }) := by
  induction p generalizing w L with
  | done b =>
      obtain ⟨rfl, rfl⟩ := Act.ended_inj hrun
      exact ⟨L, h, fun readings reactions => ⟨readings, reactions, rfl⟩⟩
  | ask r next ih =>
      obtain ⟨reply, w₁, hfirst, hrun⟩ := Act.alone_bind_eq_some hrun
      obtain ⟨L₁, h₁, hasked⟩ := shows_after h hfirst
      obtain ⟨L', h', hrest⟩ := ih reply h₁ hrun
      refine ⟨L', h', fun readings reactions => ?_⟩
      obtain ⟨readings₁, reactions₁, hend⟩ := hrest readings reactions
      obtain ⟨readings', reactions', hbegin⟩ := hasked readings₁ reactions₁
      refine ⟨readings', reactions', ?_⟩
      simp only [Program.exec, hbegin]
      exact hend

end FleetControl.Simulation
