import FleetControl.Proofs.Asked
import FleetControl.Proofs.Simulation.Watchers
import FleetControl.Proofs.Simulation.Watches

/-!
# Controllers leave watchers alone

Who takes the last watcher out of a cache waits for the end of its sweep, and meanwhile a machine lets
all controllers go on. They change what caches remember, never who watches, and they tell handlers what
they have found. A callback keeps its handler until it comes back, so it could bring back a handler that
was dropped. It does not: an informer tells the handler that its controller holds on to anyway, and a
sweep tells a handler that it has found kept just before.

* `Quiet` — what the work of a controller does to the world;
* `quiet_runJob`, `quiet_stopJob` — the jobs of controllers;
* `spares_step`, `Quiet.spares` — neither a step of a controller nor its work touches who watches;
* `watching` — what is said of a machine in which a cache is watched;
* `every_machine_watches` — whatever is done with the machine, its world is among those that come about.
-/

namespace FleetControl

/-! ## What a controller holds on to -/

namespace Loop

variable {J : Type} {l l' : Loop J}

theorem update_of_busy (h : l.Busy) (spec : ControllerSpec J) :
    l.update spec = { l with pending := some spec } := by
  have hrun : l.phase ≠ .fresh := by rcases h with h | h <;> simp [h]
  rw [update, if_neg hrun]

/-- A controller that takes a step of its own holds on to nothing new. -/
theorem mem_jobs_of_own {happening : Happening J} {job : J} (hown : happening.Own)
    (hhappens : l.happen? happening = some l') (h : job ∈ l'.jobs) : job ∈ l.jobs := by
  have hbegin : l.phase ≠ .ended → job ∈ l.beginPass.jobs → job ∈ l.jobs := by
    intro hgoing h
    obtain ⟨-, rfl | ⟨later, hlater, -⟩⟩ := mem_jobs.1 h
    · refine mem_jobs.2 ⟨hgoing, ?_⟩
      cases hpending : l.pending with
      | none => exact .inl (by simp [beginPass, hpending])
      | some later => exact .inr ⟨later, rfl, by simp [beginPass, hpending]⟩
    · cases hlater
  cases step_of_happen hhappens with
  | update | signalStop | disown => exact hown.elim
  | start hphase | resume hphase => exact hbegin (by simp [hphase]) h
  | endPass hphase | beginStop hphase => exact mem_jobs.2 ⟨by simp [hphase], (mem_jobs.1 h).2⟩
  | endStop => exact absurd rfl (mem_jobs.1 h).1

end Loop

/-! ## Whom an informer tells -/

namespace Watching

/-- A request tells nobody but one handler. -/
def TellsOnly (handler : HandlerId) (r : WatchRequest) : Prop :=
  ∀ told event, r = .notify told event → told = handler

variable {handler : HandlerId}

theorem tellsOnly_notify (event : WatchEvent) : TellsOnly handler (.notify handler event) := by
  rintro told event' ⟨⟩
  rfl

theorem only_observeTombstone (key : String) :
    (observeTombstone handler key).Only (TellsOnly handler) := by
  refine Program.Only.bind (.request nofun) fun known => ?_
  cases known with
  | none => trivial
  | some previous =>
      refine Program.Only.bind (.request (tellsOnly_notify _)) fun outcome => ?_
      cases outcome with
      | ok => exact .request nofun
      | error e => trivial

theorem only_observeLive (kv : Snapshot) : (observeLive handler kv).Only (TellsOnly handler) := by
  refine Program.Only.bind (.request nofun) fun known => ?_
  cases known with
  | none =>
      refine Program.Only.bind (.request (tellsOnly_notify _)) fun outcome => ?_
      cases outcome with
      | ok => exact .request nofun
      | error e => trivial
  | some previous =>
      dsimp only
      split
      · refine Program.Only.bind (.request (tellsOnly_notify _)) fun outcome => ?_
        cases outcome with
        | ok => exact .request nofun
        | error e => trivial
      · exact .request nofun

theorem only_observeAll (found : List Snapshot) :
    (observeAll handler found).Only (TellsOnly handler) := by
  induction found with
  | nil => trivial
  | cons kv rest ih =>
      refine Program.Only.bind (.request nofun) fun stop => ?_
      cases stop with
      | true => trivial
      | false =>
          refine Program.Only.bind ?_ fun _ => ih
          unfold observe
          split
          · exact only_observeTombstone _
          · exact only_observeLive _

/-- **A pass of an informer** tells its own handler only. -/
theorem only_informerPass (scope : String) :
    (informerPass scope handler).Only (TellsOnly handler) := by
  refine Program.Only.bind (.request nofun) fun found => ?_
  cases found with
  | error e => trivial
  | ok found => exact (only_observeAll found).bind fun _ => trivial

end Watching

namespace Simulation

/-! ## Who is at work -/

/-- A controller works on a job. -/
def World.Works (w : World) (id : Nat) (job : Job) : Prop :=
  ∃ l, w.loops.get? id = some l ∧ l.Busy ∧ l.spec.job = job

section Handlers

variable {w w' : World} {handler told : HandlerId} {id loop : Nat} {job : Job}

/-- A controller at work keeps the handler of its job. -/
theorem World.Works.handlerAlive (h : w.Works id job) (hhandler : job.handler? = some handler) :
    w.handlerAlive handler = true := by
  obtain ⟨l, hget, hbusy, rfl⟩ := h
  have hgoing : l.phase ≠ .ended := by rcases hbusy with h | h <;> simp [h]
  exact World.handlerAlive_of_held
    ⟨id, l, hget, l.spec.job, Loop.mem_jobs.2 ⟨hgoing, .inl rfl⟩, hhandler⟩

theorem SameControllers.works (h : SameControllers w w') (hworks : w.Works id job) :
    w'.Works id job := by
  rw [World.Works, h.loops]
  exact hworks

/-- Another controller changes. -/
theorem World.Works.modifyLoop (h : w.Works id job) (hne : id ≠ loop) (f : Loop Job → Loop Job) :
    (w.modifyLoop loop f).Works id job := by
  obtain ⟨l, hget, hbusy⟩ := h
  exact ⟨l, by rw [World.get?_modifyLoop, if_neg hne, hget], hbusy⟩

theorem handlerAlive_beginCallback (h : (w.beginCallback loop told).handlerAlive handler = true) :
    handler = told ∨ w.handlerAlive handler = true := by
  simp only [World.handlerAlive, World.keptInformers, World.beginCallback, List.any_cons,
    Bool.or_eq_true, beq_iff_eq] at h ⊢
  grind

theorem handlerAlive_endCallback (h : (w.endCallback loop).handlerAlive handler = true) :
    w.handlerAlive handler = true := by
  have hcalled : (w.endCallback loop).callbacks.any (·.2 == handler) = true →
      w.callbacks.any (·.2 == handler) = true := by
    intro hcalled
    obtain ⟨c, hc, hhandler⟩ := List.any_eq_true.1 hcalled
    exact List.any_eq_true.2 ⟨c, (List.mem_filter.1 hc).1, hhandler⟩
  simp only [World.handlerAlive, Bool.or_eq_true] at h ⊢
  exact h.imp_left (Or.imp_right hcalled)

end Handlers

/-! ## What others find changed -/

section Spared

variable {w w' : World} {cache manager : Nat} {calls : List WatcherCall}

/-- Controllers are the same, and the cache changes in what it remembers. -/
theorem spares_of_same (hsame : SameControllers w w')
    (hcached : ∀ c, w.caches.get? cache = some c →
      ∃ entries, w'.caches.get? cache = some { c with entries })
    (hdropped : ∀ watcher, .register watcher ∈ calls → w'.handlerAlive watcher.handler = true →
      w.handlerAlive watcher.handler = true) : Spares cache manager calls w w' where
  cached := hcached
  known hknown := by rwa [hsame.managers]
  name c _ := by rw [World.controllers, World.controllers, hsame.managers]
  sweep c spec _ hserves := by
    rw [World.Serves, World.controllers, hsame.managers, hsame.loops]
    exact hserves
  dropped := hdropped

end Spared

/-! ## Quiet work -/

/-- What the work of a controller on a job does to the world: controllers are the same, caches change in
what they remember, and while the controller is at work a handler that was dropped is not kept again. -/
structure Quiet (id : Nat) (job : Job) (w w' : World) : Prop where
  same : SameControllers w w'
  cached : ∀ cache c, w.caches.get? cache = some c →
    ∃ entries, w'.caches.get? cache = some { c with entries }
  dropped : w.Works id job → ∀ handler, w'.handlerAlive handler = true →
    w.handlerAlive handler = true

section Work

variable {w w' w'' : World} {id : Nat} {job : Job}

namespace Quiet

theorem refl (w : World) : Quiet id job w w :=
  ⟨.refl w, fun _ c h => ⟨c.entries, h⟩, fun _ _ h => h⟩

theorem trans (h : Quiet id job w w') (h' : Quiet id job w' w'') : Quiet id job w w'' := by
  refine ⟨h.same.trans h'.same, fun cache c hcache => ?_, fun hworks handler halive => ?_⟩
  · obtain ⟨entries, hcache⟩ := h.cached cache c hcache
    obtain ⟨entries', hcache⟩ := h'.cached cache _ hcache
    exact ⟨entries', hcache⟩
  · exact h.dropped hworks handler (h'.dropped (h.same.works hworks) handler halive)

/-- What a cache remembers changes. -/
theorem entries (w : World) (cache : Nat) {f : Cache → Cache}
    (hf : ∀ c, ∃ entries, f c = { c with entries }) : Quiet id job w (w.modifyCache cache f) := by
  refine ⟨⟨rfl, rfl⟩, fun other c hcache => ?_, fun _ _ h => h⟩
  simp only [World.modifyCache, Arena.get?_modify, hcache, Option.map_some]
  split
  · obtain ⟨entries, heq⟩ := hf c
    exact ⟨entries, congrArg some heq⟩
  · exact ⟨c.entries, rfl⟩

theorem endCallback (w : World) (loop : Nat) : Quiet id job w (w.endCallback loop) :=
  ⟨⟨rfl, rfl⟩, fun _ c h => ⟨c.entries, h⟩, fun _ _ => handlerAlive_endCallback⟩

/-- A handler is told that is kept anyway. -/
theorem beginCallback {told : HandlerId} (loop : Nat)
    (htold : w.Works id job → w.handlerAlive told = true) :
    Quiet id job w (w.beginCallback loop told) := by
  refine ⟨⟨rfl, rfl⟩, fun _ c h => ⟨c.entries, h⟩, fun hworks handler halive => ?_⟩
  rcases handlerAlive_beginCallback halive with rfl | hkept
  · exact htold hworks
  · exact hkept

/-- Others find nothing but what a cache remembers changed. -/
theorem spares {cache manager : Nat} {calls : List WatcherCall} (h : Quiet id job w w')
    (hworks : w.Works id job) : Spares cache manager calls w w' :=
  spares_of_same h.same (h.cached cache) fun watcher _ => h.dropped hworks watcher.handler

end Quiet

theorem Served.quiet (h : Served w w') : Quiet id job w w' := by
  refine ⟨h.sameControllers, fun cache c hcache => ⟨c.entries, ?_⟩, fun _ handler halive => ?_⟩
  · rw [h.rest]
    exact hcache
  · rwa [h.handlerAlive] at halive

/-- A request that tells nobody, or a handler that is kept anyway. -/
theorem quiet_answerWatch (loop cache : Nat) (r : WatchRequest)
    (hcalled : ∀ handler event, r = .notify handler event → w.Works id job →
      w.handlerAlive handler = true) : (answerWatch loop cache r).Steady (Quiet id job) w :=
  steady_answerWatch_of loop cache (fun _ _ h => h.quiet) (fun w _ hf => .entries w cache hf)
    (fun w => .endCallback w loop) r fun handler event hr => .beginCallback loop (hcalled handler event hr)

/-- The act of a program that asks for certain requests only. -/
theorem Act.Steady.ofProgram_only {ρ α : Type} {Reply : ρ → Type} {R : World → World → Prop}
    {answer : (r : ρ) → Act World (Reply r)} {P : ρ → Prop} {p : Program ρ Reply α}
    (hp : p.Only P) (h : ∀ r w, P r → (answer r).Steady R w) (w : World) :
    (Act.ofProgram answer p).Steady R w := by
  induction p generalizing w with
  | done a => trivial
  | ask r next ih => exact (h r w hp.1).bind fun reply w => ih reply (hp.2 reply) w

/-! ## Sweeps -/

section Sweeps

variable {loop cache : Nat}

/-- A request that tells nobody. -/
theorem quiet_request {r : WatchRequest} (hsilent : ∀ handler event, r ≠ .notify handler event) :
    (Act.ofProgram (answerWatch loop cache) (Watching.ask r)).Steady (Quiet id job) w :=
  (quiet_answerWatch loop cache r fun handler event hr => absurd hr (hsilent handler event)).bind
    fun _ _ => trivial

/-- A handler is told that is kept. -/
theorem quiet_notify {handler : HandlerId} (event : WatchEvent)
    (halive : w.handlerAlive handler = true) :
    (Act.ofProgram (answerWatch loop cache) (Watching.notify handler event)).Steady
      (Quiet id job) w := by
  refine (quiet_answerWatch loop cache _ fun told event' htold _ => ?_).bind fun _ _ => trivial
  cases htold
  exact halive

/-- What is replied about the handler of a key is what the world says now. -/
theorem quiet_handlerFor {α : Type} {key : String} {k : Option HandlerId → Watching α}
    (h : (Act.ofProgram (answerWatch loop cache) (k ((w.caches.get? cache).bind fun c =>
      c.handlerFor w.handlerAlive key))).Steady (Quiet id job) w) :
    (Act.ofProgram (answerWatch loop cache) (Watching.handlerFor key >>= k)).Steady
      (Quiet id job) w := h

/-- **A key is swept.** The handler that is told was found kept, and nothing has happened since. -/
theorem quiet_sweepKey (key : String) :
    (Act.ofProgram (answerWatch loop cache) (sweepKey key)).Steady (Quiet id job) w := by
  have hforget : ∀ w, (Act.ofProgram (answerWatch loop cache)
      (Watching.forget key >>= fun _ => pure false)).Steady (Quiet id job) w := by
    intro w
    rw [Act.ofProgram_bind]
    exact (quiet_request (by nofun)).bind fun _ _ => trivial
  unfold sweepKey
  rw [Act.ofProgram_bind]
  refine (quiet_request (by nofun)).bind fun found w => ?_
  rcases found with e | _ | _
  · trivial
  · refine quiet_handlerFor ?_
    cases hfound : (w.caches.get? cache).bind fun c => c.handlerFor w.handlerAlive key with
    | none => exact hforget w
    | some handler =>
        obtain ⟨c, -, hhandler⟩ := Option.bind_eq_some_iff.1 hfound
        obtain ⟨watcher, -, halive, -, rfl⟩ := Cache.watcher_of_handlerFor hhandler
        dsimp only
        rw [Act.ofProgram_bind]
        refine (quiet_notify _ halive).bind fun outcome w => ?_
        cases outcome with
        | ok => exact hforget w
        | error e => trivial
  · trivial

theorem quiet_sweepKeys (keys : List String) :
    (Act.ofProgram (answerWatch loop cache) (sweepKeys keys)).Steady (Quiet id job) w := by
  induction keys generalizing w with
  | nil => trivial
  | cons key rest ih =>
      unfold sweepKeys
      rw [Act.ofProgram_bind]
      refine (quiet_request (by nofun)).bind fun stop w => ?_
      cases stop with
      | true => trivial
      | false =>
          simp only [Bool.false_eq_true, if_false, Act.ofProgram_bind]
          refine (quiet_sweepKey key).bind fun failed w => ?_
          exact ih.bind fun _ _ => trivial

/-- **A round of a sweep.** -/
theorem quiet_sweep :
    (Act.ofProgram (answerWatch loop cache) FleetControl.sweep).Steady (Quiet id job) w := by
  unfold FleetControl.sweep
  simp only [Act.ofProgram_bind]
  refine (quiet_request (by nofun)).bind fun keys w => (quiet_sweepKeys keys).bind fun failed w => ?_
  split <;> trivial

end Sweeps

/-! ## Jobs -/

theorem quiet_addLog (w : World) (label : String) (e : LogEvent) :
    Quiet id job w (w.addLog label e) :=
  ⟨⟨rfl, rfl⟩, fun _ c h => ⟨c.entries, h⟩, fun _ _ h => h⟩

/-- **A pass of a job** is quiet. -/
theorem quiet_runJob (loop : Nat) (job : Job) : (runJob loop job).Steady (Quiet loop job) w := by
  cases job with
  | informer scope handler cache =>
      refine .ofProgram_only (Watching.only_informerPass scope) (fun r w htells => ?_) w
      refine quiet_answerWatch loop cache r fun told event hr hworks => ?_
      obtain rfl := htells told event hr
      exact hworks.handlerAlive rfl
  | sweep cache => exact quiet_sweep
  | scripted label script stop =>
      refine (Act.steady_update (quiet_addLog _ _ _)).bind fun runs w => ?_
      refine (steady_playEntry _ _).bind fun _ w => ?_
      exact (Act.steady_modify (quiet_addLog _ _ _)).bind fun _ _ => trivial
  | bare => trivial

/-- **The stop function of a job** is quiet. -/
theorem quiet_stopJob (loop : Nat) (job : Job) : (stopJob loop job).Steady (Quiet loop job) w := by
  unfold stopJob
  split
  · refine (Act.steady_modify (quiet_addLog _ _ _)).bind fun _ w => ?_
    exact (steady_playEntry _ _).bind fun _ _ => trivial
  · trivial

end Work

/-! ## Steps of controllers -/

section Steps

variable {w : World} {cache manager loop : Nat} {calls : List WatcherCall} {l l' : Loop Job}
variable {happening : Happening Job}

/-- **A controller takes a step of its own.** -/
theorem spares_step (hget : w.loops.get? loop = some l) (hown : happening.Own)
    (hhappens : l.happen? happening = some l') :
    Spares cache manager calls w (w.modifyLoop loop fun _ => l') where
  cached c hcache := ⟨c.entries, hcache⟩
  known := id
  name _ _ := rfl
  sweep c spec _ hserves := by
    obtain ⟨other, k, hid, hk, hserves⟩ := hserves
    refine ⟨other, ?_⟩
    by_cases heq : other = loop
    · subst heq
      obtain rfl := Option.some.inj (hk.symm.trans hget)
      refine ⟨l', hid, ?_, (hserves.step hown hhappens).1⟩
      rw [World.get?_modifyLoop, if_pos rfl, hget, Option.map_some]
    · exact ⟨k, hid, by rw [World.get?_modifyLoop, if_neg heq, hk], hserves⟩
  dropped watcher _ halive := by
    refine World.handlerAlive_of_holds rfl (World.holds_of_modifyLoop ?_) halive
    intro k job hk hjob _
    obtain rfl := Option.some.inj (hk.symm.trans hget)
    exact Loop.mem_jobs_of_own hown hhappens hjob

end Steps

/-! ## Calls and controllers at work -/

/-- Controllers at work go on with their jobs. -/
def Keeps (w w' : World) : Prop := ∀ loop job, w.Works loop job → w'.Works loop job

section Calls

variable {w : World} {loop manager : Nat} {job : Job} {name kind : String}
variable {spec : ControllerSpec Job}

theorem World.Works.register (h : w.Works loop job) :
    (w.register manager name kind spec).2.Works loop job := by
  cases hid : (w.controllers manager).get? name with
  | none =>
      rw [World.register_of_free hid]
      obtain ⟨l, hget, hbusy⟩ := h
      exact ⟨l, (Arena.get?_add_of_lt (Arena.lt_size_of_get? hget) _).trans hget, hbusy⟩
  | some other =>
      rw [World.register_of_taken hid]
      by_cases hloop : loop = other
      · subst hloop
        obtain ⟨l, hget, hbusy, rfl⟩ := h
        refine ⟨l.update spec, ?_, ?_, ?_⟩
        · rw [World.get?_modifyLoop, if_pos rfl, hget, Option.map_some]
        · rwa [Loop.Busy, Loop.phase_update]
        · rw [Loop.update_of_busy hbusy]
      · exact h.modifyLoop hloop _

theorem World.Works.unregister (h : w.Works loop job) :
    (w.unregister manager name).2.Works loop job := by
  unfold World.unregister
  split
  · exact h
  · next other hid =>
    by_cases hloop : loop = other
    · subst hloop
      obtain ⟨l, hget, hbusy⟩ := h
      refine ⟨l.signalStop, ?_, hbusy⟩
      exact (World.get?_modifyLoop _ _ _ _).trans (by rw [if_pos rfl, hget, Option.map_some])
    · exact h.modifyLoop hloop Loop.signalStop

theorem keeps_addWatcher (cache : Nat) (watcher : Watcher) :
    Keeps w (w.addWatcher cache manager watcher) := by
  intro loop job h
  unfold World.addWatcher
  split
  · exact h
  · dsimp only
    split
    · unfold World.startSweep
      split
      · exact h
      · exact World.Works.register h
    · exact h

theorem keeps_dropWatcher (cache : Nat) (watcher : Watcher) :
    Keeps w (w.dropWatcher cache watcher).2 := by
  intro loop job h
  unfold World.dropWatcher
  split <;> exact h

/-- **A call** takes no controller away from its job. -/
theorem keeps_call (cache manager : Nat) (call : WatcherCall) :
    (call.act cache manager).Steady Keeps w := by
  cases call with
  | register watcher =>
      exact (Act.steady_modify (keeps_addWatcher cache watcher)).bind fun _ _ => trivial
  | unregister watcher =>
      refine (Act.steady_update (keeps_dropWatcher cache watcher)).bind fun last w => ?_
      cases last with
      | false => trivial
      | true =>
          simp only [if_true, stopSweep, Act.Steady]
          split
          · trivial
          · split
            · exact (steady_of_unregister fun _ _ => World.Works.unregister).2
            · trivial

end Calls

/-! ## Machines -/

/-- A cache is watched, and controllers at work are quiet. -/
def watching (cache manager : Nat) (calls : List WatcherCall) : Conduct :=
  ⟨Watched cache manager calls, fun loop job w => w.Works loop job, Quiet⟩

section Machines

variable {cache manager : Nat} {calls : List WatcherCall} {w w' : World} {m : Machine}

theorem lawful_watching : (watching cache manager calls).Lawful where
  refl := .refl
  trans := .trans
  pass loop job _ := quiet_runJob loop job
  stop loop job _ := quiet_stopJob loop job
  back w := .endCallback w _
  same := Quiet.same
  goes hworks hquiet h := h.others (hquiet.spares hworks)
  on hworks hsame := hsame.works hworks
  step _ h hget hown hhappens := h.others (spares_step hget hown hhappens)
  begun {_ _ _ l'} hget hbusy :=
    ⟨l', by rw [World.get?_modifyLoop, if_pos rfl, hget, Option.map_some], hbusy, rfl⟩
  others {_ loop _ _ _} _ hworks hget hne := by
    refine hworks.modifyLoop ?_ _
    rintro rfl
    obtain ⟨k, hk, hbusy, -⟩ := hworks
    obtain rfl := Option.some.inj (hk.symm.trans hget)
    exact hne hbusy rfl
  later _ h := h.others (spares_of_same ⟨rfl, rfl⟩ (fun c h => ⟨c.entries, h⟩) fun _ _ h => h)

/-- Others may do what spares who watches and lets controllers at work go on. -/
theorem watching_allows (hspares : Spares cache manager calls w w') (hkeeps : Keeps w w') :
    (watching cache manager calls).Allows w w' := fun h => ⟨h.others hspares, hkeeps⟩

theorem Served.allowed (h : Served w w') : (watching cache manager calls).Allows w w' := by
  have hquiet : Quiet 0 .bare w w' := h.quiet
  refine watching_allows (spares_of_same h.sameControllers (hquiet.cached cache) ?_) fun _ _ =>
    h.sameControllers.works
  intro watcher _ halive
  rwa [h.handlerAlive] at halive

/-- **A call.** Whoever makes it comes back with no error, as far as it comes back. -/
theorem watching_call (h : m.Holds (watching cache manager calls)) (call : WatcherCall) :
    (m.perform (call.act cache manager)).2.Holds (watching cache manager (calls ++ [call])) ∧
      ∀ outcome, (m.perform (call.act cache manager)).1 = some outcome → outcome = .ok () := by
  obtain ⟨c, hattended⟩ := Watched.attended h.world
  obtain ⟨hsucceeds, -⟩ := hattended.call call
  obtain ⟨hkeeps, -⟩ := Act.Steady.run (fun _ _ _ => id)
    (fun _ _ _ h h' loop job hworks => h' loop job (h loop job hworks))
    (keeps_call cache manager call) m.world.now
  have hafter : ({ m with world := ((call.act cache manager).run m.world.now m.world).2 } :
      Machine).Holds (watching cache manager (calls ++ [call])) := by
    refine ⟨Watched.call h.world call, fun loop b hmem => ?_⟩
    obtain ⟨job, hworks, hb⟩ := h.tasks loop b hmem
    exact ⟨job, hkeeps loop job hworks, hb⟩
  obtain ⟨fuel, hfuel⟩ : ∃ fuel, Machine.patience = fuel + 1 := ⟨4611686018427387903, rfl⟩
  unfold Machine.perform
  rw [hfuel, Machine.runFrom]
  generalize (call.act cache manager).run m.world.now m.world = r at hsucceeds hafter
  obtain ⟨progress, world⟩ := r
  cases progress with
  | ended outcome =>
      refine ⟨hafter, fun outcome' heq => ?_⟩
      exact (Option.some.inj heq).symm.trans hsucceeds
  | crashed => exact hsucceeds.elim
  | blocked b =>
      cases b with
      | sleeping wake next => exact hsucceeds.elim
      | awaiting ready next =>
          -- The end of the sweep is waited for, and then there is nothing left to do.
          obtain rfl : next = .done (.ok ()) := hsucceeds
          refine ⟨(Machine.Holds.runFrom_and_waitFor lawful_watching fuel).2 _ _ hafter
            fun _ => trivial, fun outcome heq => ?_⟩
          exact ((Machine.ready_of_await ready _ fuel).2 _ _ outcome (Prod.ext heq rfl)).2

end Machines

/-! ## Whatever is done -/

/-- What is done with a machine while a cache is watched. -/
inductive Doing where
  | call (call : WatcherCall)
  /-- A handler is dropped. -/
  | drop (name : String)
  /-- Something is asked of the store. -/
  | ask (op : StoreOp)
  | pause (millis : Nat)
  /-- Whatever can go on now does so. -/
  | rest

namespace Doing

/-- The call that is made, if one is. -/
def call? : Doing → Option WatcherCall
  | call c => some c
  | _ => none

/-- The machine afterwards. -/
def next (cache manager : Nat) (m : Machine) : Doing → Machine
  | call c => (m.perform (c.act cache manager)).2
  | drop name => (m.perform (.update fun w => w.dropHandler name)).2
  | ask op => (m.perform (storeOp op)).2
  | pause millis => (m.perform (Act.pause millis : Act World Unit)).2
  | rest => m.rest

end Doing

/-- Whatever is done, the cache is watched with the call that is made, if one is. -/
theorem watching_next {cache manager : Nat} {calls : List WatcherCall} {m : Machine}
    (h : m.Holds (watching cache manager calls)) (d : Doing) :
    (d.next cache manager m).Holds (watching cache manager (calls ++ d.call?.toList)) := by
  have hnone : ∀ m' : Machine, m'.Holds (watching cache manager calls) →
      m'.Holds (watching cache manager (calls ++ [])) := by
    intro m' h'
    rwa [List.append_nil]
  cases d with
  | call c => exact (watching_call h c).1
  | drop name =>
      refine hnone _ (h.perform lawful_watching (Act.steady_update ?_))
      exact watching_allows (spares_dropHandler _ _ _ _ name) fun _ _ => id
  | ask op =>
      exact hnone _ (h.perform lawful_watching ((steady_storeOp op).mono fun _ _ => Served.allowed))
  | pause millis => exact hnone _ (h.perform lawful_watching (Act.steady_pause millis))
  | rest => exact hnone _ (h.rest lawful_watching)

/-- **Whatever is done with a machine** while a cache is watched, the world is one that comes about
with the calls that were made. -/
theorem every_machine_watches {cache manager : Nat} {calls : List WatcherCall} {w : World}
    (h : Watched cache manager calls w) (doings : List Doing) :
    Watched cache manager (calls ++ doings.filterMap Doing.call?)
      (doings.foldl (Doing.next cache manager) (.new w)).world := by
  have hfold : ∀ (calls : List WatcherCall) (m : Machine), m.Holds (watching cache manager calls) →
      (doings.foldl (Doing.next cache manager) m).Holds
        (watching cache manager (calls ++ doings.filterMap Doing.call?)) := by
    induction doings with
    | nil =>
        intro calls m h
        rwa [List.filterMap_nil, List.append_nil]
    | cons d rest ih =>
        intro calls m h
        have hrest := ih _ _ (watching_next h d)
        rw [List.foldl_cons, List.filterMap_cons]
        cases hcall : d.call? <;> simpa [hcall] using hrest
  exact (hfold calls _ (.new h)).world

end Simulation

end FleetControl
