import FleetControl.Proofs.Simulation.Registrations
import FleetControl.Simulation.Caches

/-!
# A cache is swept while it is watched

Whoever registers the first watcher of a cache starts its sweep, and whoever takes the last one out
stops it. Nobody counts the watchers. Each of the two calls forgets those whose handlers were dropped,
changes the list and looks at its length; the one starts the sweep if there is one watcher now, the
other stops it if there were some before and there are none now. A handler may be dropped at any time,
and its watcher stays in the list until the next call. So there may be one watcher now where there were
several before, and the sweep is given its spec once more; and there may be none now although the call
was about a watcher that was never there.

What makes the two decisions agree is that **the sweep is registered exactly if the list is not empty**,
dropped handlers counted. A list of dropped handlers only is still one that a call finds and clears.

* `WatcherCall`, `Standing` — the calls, and the watchers that should be there after them;
* `Watched` — the worlds that come about while a cache is watched, whatever others do meanwhile;
* `Attended` — what is true of them; `Attended.register`, `Attended.unregister` and `Attended.spared` keep
  it true;
* `swept_while_watched` — the sweep of a cache and its watchers.
-/

namespace FleetControl

/-! ## Watchers in a list -/

namespace Cache

variable {c : Cache} {alive : HandlerId → Bool} {x y : Watcher}

theorem mem_living : y ∈ c.living alive ↔ y ∈ c.watchers ∧ alive y.handler = true := List.mem_filter

/-- A registration is the first if there is no watcher whose handler is kept. -/
theorem register_first : (c.register alive x).1 = true ↔ c.living alive = [] := by
  simp [register]

theorem mem_register : y ∈ (c.register alive x).2.watchers ↔ y ∈ c.living alive ∨ y = x := by
  simp [register]

/-- A watcher that is taken out is the last if there were some and there are none. -/
theorem unregister_last :
    (c.unregister alive x).1 = true ↔ c.watchers ≠ [] ∧ (c.unregister alive x).2.watchers = [] := by
  simp [unregister]

theorem mem_unregister : y ∈ (c.unregister alive x).2.watchers ↔ y ∈ c.living alive ∧ y ≠ x := by
  simp [unregister]

end Cache

/-! ## Who keeps a handler -/

namespace Loop

variable {J : Type} {l : Loop J} {job : J}

theorem mem_jobs : job ∈ l.jobs ↔
    l.phase ≠ .ended ∧ (job = l.spec.job ∨ ∃ later, l.pending = some later ∧ job = later.job) := by
  unfold jobs hasEnded
  by_cases hended : l.phase = .ended
  · simp [hended]
  · cases hpending : l.pending <;> simp [hended]

/-- A controller that is given a spec holds on to nothing else that is new. -/
theorem mem_jobs_update {spec : ControllerSpec J} (h : job ∈ (l.update spec).jobs) :
    job = spec.job ∨ job ∈ l.jobs := by
  rw [mem_jobs, phase_update] at h
  rw [mem_jobs]
  obtain ⟨hgoing, hjob⟩ := h
  unfold update at hjob
  split at hjob
  · exact hjob.imp_right fun hlater => ⟨hgoing, .inr hlater⟩
  · rcases hjob with hjob | ⟨later, hlater, hjob⟩
    · exact .inr ⟨hgoing, .inl hjob⟩
    · obtain rfl := Option.some.inj hlater
      exact .inl hjob

end Loop

namespace Simulation

namespace World

variable {w w' : World} {handler : HandlerId}

/-- A controller holds on to a handler. -/
def Holds (w : World) (handler : HandlerId) : Prop :=
  ∃ id l, w.loops.get? id = some l ∧ ∃ job ∈ l.jobs, job.handler? = some handler

theorem any_jobs_iff (w : World) (handler : HandlerId) :
    (w.loops.items.any fun l => l.jobs.any fun j => j.handler? == some handler) = true ↔
      w.Holds handler := by
  simp only [Holds, Arena.get?, List.any_eq_true, beq_iff_eq]
  constructor
  · rintro ⟨l, hl, hjob⟩
    obtain ⟨id, hget⟩ := List.getElem?_of_mem hl
    exact ⟨id, l, hget, hjob⟩
  · rintro ⟨id, l, hget, hjob⟩
    exact ⟨l, List.mem_of_getElem? hget, hjob⟩

theorem handlerAlive_of_held (h : w.Holds handler) : w.handlerAlive handler = true := by
  rw [handlerAlive, (any_jobs_iff w handler).2 h, Bool.or_true]

/-- **Who keeps a handler.** If controllers hold on to no other handlers than before, and nothing else
that keeps one has changed, nobody keeps a handler that nobody kept. -/
theorem handlerAlive_of_holds
    (hrest : w' = { w with
      now := w'.now, caches := w'.caches, managers := w'.managers, loops := w'.loops })
    (hholds : w'.Holds handler → w.Holds handler) (h : w'.handlerAlive handler = true) :
    w.handlerAlive handler = true := by
  simp only [handlerAlive, Bool.or_eq_true, any_jobs_iff] at h ⊢
  rw [hrest] at h
  exact h.imp_right fun hheld => hholds (by rw [hrest]; exact hheld)

/-- One controller has changed. -/
theorem holds_of_modifyLoop {id : Nat} {f : Loop Job → Loop Job}
    (hf : ∀ l job, w.loops.get? id = some l → job ∈ (f l).jobs → job.handler? = some handler →
      job ∈ l.jobs) (h : (w.modifyLoop id f).Holds handler) : w.Holds handler := by
  obtain ⟨j, l, hget, job, hjob, hhandler⟩ := h
  rw [get?_modifyLoop] at hget
  split at hget
  · next hid =>
    subst hid
    obtain ⟨l, hbefore, rfl⟩ := Option.map_eq_some_iff.1 hget
    exact ⟨j, l, hbefore, job, hf l job hbefore hjob hhandler, hhandler⟩
  · exact ⟨j, l, hget, job, hjob, hhandler⟩

/-! ## Controllers of a name -/

section Names

variable {manager : Nat} {name kind : String} {spec : ControllerSpec Job}

/-- The controller of a name goes on, with a spec that it was given. -/
def Serves (w : World) (manager : Nat) (name : String) (spec : ControllerSpec Job) : Prop :=
  ∃ id l, (w.controllers manager).get? name = some id ∧ w.loops.get? id = some l ∧ l.Serves spec

/-- A controller that is registered serves the spec of the registration, and so does one that served
another. -/
theorem serves_register (hknown : (w.managers.get? manager).isSome = true)
    (hserves : (w.controllers manager).contains name = true →
      ∃ earlier, w.Serves manager name earlier) :
    (w.register manager name kind spec).2.Serves manager name spec := by
  cases hid : (w.controllers manager).get? name with
  | none =>
      rw [register_of_free hid]
      refine ⟨w.loops.size, _, ?_, Arena.get?_add_self _ _, Loop.serves_new name kind spec⟩
      rw [controllers_eq (get?_managers_of_modify hknown rfl), KeyMap.get?_insert_self]
  | some id =>
      obtain ⟨earlier, id', l, hid', hget, hl⟩ :=
        hserves ((KeyMap.contains_iff _ _).2 ⟨id, hid⟩)
      obtain rfl := Option.some.inj (hid.symm.trans hid')
      rw [register_of_taken hid]
      refine ⟨id, l.update spec, hid, ?_, hl.update spec⟩
      rw [get?_modifyLoop, if_pos rfl, hget, Option.map_some]

/-- A controller for a job that keeps no handler. -/
theorem handlerAlive_of_register (hjob : spec.job.handler? = none)
    (h : (w.register manager name kind spec).2.handlerAlive handler = true) :
    w.handlerAlive handler = true := by
  have hnone : ∀ job : Job, job.handler? = some handler → job ≠ spec.job := by
    rintro job hhandler rfl
    rw [hjob] at hhandler
    cases hhandler
  cases hid : (w.controllers manager).get? name with
  | none =>
      rw [register_of_free hid] at h
      refine handlerAlive_of_holds rfl ?_ h
      rintro ⟨id, l, hget, job, hmem, hhandler⟩
      have hget : (w.loops.items ++ [Loop.new name kind spec])[id]? = some l := hget
      rw [List.getElem?_append] at hget
      split at hget
      · exact ⟨id, l, hget, job, hmem, hhandler⟩
      · obtain rfl := List.mem_singleton.1 (List.mem_of_getElem? hget)
        obtain ⟨-, hjob | ⟨later, hlater, -⟩⟩ := Loop.mem_jobs.1 hmem
        · exact absurd hjob (hnone job hhandler)
        · cases hlater
  | some id =>
      rw [register_of_taken hid] at h
      refine handlerAlive_of_holds rfl (holds_of_modifyLoop fun l job _ hmem hhandler => ?_) h
      exact (Loop.mem_jobs_update hmem).resolve_left (hnone job hhandler)

theorem handlerAlive_of_unregister
    (h : (w.unregister manager name).2.handlerAlive handler = true) :
    w.handlerAlive handler = true := by
  unfold unregister at h
  split at h
  · exact h
  · exact handlerAlive_of_holds (w := w) rfl
      (holds_of_modifyLoop (f := Loop.signalStop) fun l job _ hmem _ => hmem) h

/-- A name that is taken out is free. -/
theorem get?_unregister_self (w : World) (manager : Nat) (name : String) :
    ((w.unregister manager name).2.controllers manager).get? name = none := by
  unfold unregister
  split
  · next hnone => exact hnone
  · next id hid =>
    have hknown : (w.managers.get? manager).isSome = true := by
      by_contra hunknown
      rw [controllers, Option.not_isSome_iff_eq_none.1 hunknown, Option.getD_none,
        KeyMap.get?_empty] at hid
      cases hid
    dsimp only
    rw [controllers_eq (get?_managers_of_modify hknown rfl), KeyMap.get?_erase_self]

theorem caches_register (w : World) (manager : Nat) (name kind : String)
    (spec : ControllerSpec Job) : (w.register manager name kind spec).2.caches = w.caches := by
  unfold register
  split <;> rfl

theorem caches_unregister (w : World) (manager : Nat) (name : String) :
    (w.unregister manager name).2.caches = w.caches := by
  unfold unregister
  split <;> rfl

theorem isSome_register (h : (w.managers.get? manager).isSome = true) :
    ((w.register manager name kind spec).2.managers.get? manager).isSome = true := by
  cases hid : (w.controllers manager).get? name with
  | none =>
      rw [register_of_free hid]
      exact Option.isSome_of_eq_some (get?_managers_of_modify h rfl)
  | some id =>
      rw [register, hid]
      exact h

theorem isSome_unregister (h : (w.managers.get? manager).isSome = true) :
    ((w.unregister manager name).2.managers.get? manager).isSome = true := by
  unfold unregister
  split
  · exact h
  · exact Option.isSome_of_eq_some (get?_managers_of_modify h rfl)

end Names

end World

/-! ## Calls -/

/-- What is asked of a cache about its watchers. -/
inductive WatcherCall where
  | register (watcher : Watcher)
  | unregister (watcher : Watcher)

/-- What a call does. -/
def WatcherCall.act (cache manager : Nat) : WatcherCall → Act World (Except RuntimeError Unit)
  | .register watcher => do
    watch cache manager watcher
    pure (.ok ())
  | .unregister watcher => unwatch cache manager watcher

/-- How far an act has come that fails in no way: it has ended well, or it ends well as soon as what it
waits for is so. -/
def Act.Progress.Succeeds : Act.Progress World (Except RuntimeError Unit) → Prop
  | .ended outcome => outcome = .ok ()
  | .blocked (.awaiting _ next) => next = .done (.ok ())
  | .crashed | .blocked (.sleeping ..) => False

/-- A watcher was registered after it was last taken out. -/
def Standing (calls : List WatcherCall) (watcher : Watcher) : Prop :=
  ∃ earlier later, calls = earlier ++ .register watcher :: later ∧ .unregister watcher ∉ later

section Standing

variable {calls : List WatcherCall} {call : WatcherCall} {x : Watcher}

theorem Standing.mem (h : Standing calls x) : .register x ∈ calls := by
  obtain ⟨earlier, later, rfl, -⟩ := h
  exact List.mem_append_right _ List.mem_cons_self

/-- One more call. -/
theorem standing_concat :
    Standing (calls ++ [call]) x ↔
      call = .register x ∨ (Standing calls x ∧ call ≠ .unregister x) := by
  constructor
  · rintro ⟨earlier, later, hcalls, hnot⟩
    rcases List.eq_nil_or_concat later with rfl | ⟨later, last, rfl⟩
    · obtain ⟨-, hlast⟩ := List.append_inj' hcalls rfl
      exact .inl (List.singleton_inj.1 hlast)
    · rw [List.concat_eq_append, ← List.cons_append, ← List.append_assoc] at hcalls
      obtain ⟨hbefore, hlast⟩ := List.append_inj' hcalls rfl
      obtain rfl := List.singleton_inj.1 hlast
      simp only [List.concat_eq_append, List.mem_append, List.mem_singleton, not_or] at hnot
      exact .inr ⟨⟨earlier, later, hbefore, hnot.1⟩, fun heq => hnot.2 heq.symm⟩
  · rintro (rfl | ⟨⟨earlier, later, rfl, hnot⟩, hcall⟩)
    · exact ⟨calls, [], rfl, List.not_mem_nil⟩
    · refine ⟨earlier, later ++ [call], by simp, ?_⟩
      simpa using ⟨hnot, Ne.symm hcall⟩

end Standing

/-! ## What calls do -/

section Runs

variable {w : World} {cache manager : Nat} {c : Cache}

theorem get?_modifyCache (hcache : w.caches.get? cache = some c) (f : Cache → Cache) :
    (w.modifyCache cache f).caches.get? cache = some (f c) := by
  simp only [World.modifyCache, Arena.get?_modify, if_true, hcache, Option.map_some]

theorem handlerAlive_modifyCache (w : World) (cache : Nat) (f : Cache → Cache) :
    (w.modifyCache cache f).handlerAlive = w.handlerAlive := rfl

/-- A watcher is registered at once. -/
theorem run_register (watcher : Watcher) (now : Nat) :
    ((WatcherCall.register watcher).act cache manager).run now w =
      (.ended (.ok ()), w.addWatcher cache manager watcher) := rfl

theorem addWatcher_eq (hcache : w.caches.get? cache = some c) (watcher : Watcher) :
    w.addWatcher cache manager watcher =
      if (c.register w.handlerAlive watcher).1 then
        ((w.modifyCache cache fun _ => (c.register w.handlerAlive watcher).2).register manager
          c.sweepName sweepKind (sweepSpec c.sweepInterval (.sweep cache))).2
      else w.modifyCache cache fun _ => (c.register w.handlerAlive watcher).2 := by
  rw [World.addWatcher, hcache]
  dsimp only
  rw [World.startSweep, get?_modifyCache hcache]
  rfl

/-- An act that begins with a change goes on from it. -/
theorem Act.run_update {α β : Type} (f : World → β × World) (k : β → Act World α) (now : Nat) :
    (Act.update f >>= k).run now w = (k (f w).1).run now (f w).2 := rfl

/-- A controller that is there is taken out, and then its end is waited for. -/
theorem run_removeControllerAndWait {name : String}
    (hname : (w.controllers manager).contains name = true) (now : Nat) :
    ((removeControllerAndWait manager name).run now w).1.Succeeds ∧
      ((removeControllerAndWait manager name).run now w).2 = (w.unregister manager name).2 := by
  obtain ⟨id, hid⟩ := (KeyMap.contains_iff _ _).1 hname
  have htaken : (w.unregister manager name).1 = .ok id := by rw [World.unregister, hid]
  let waiting : Act World (Except RuntimeError Unit) :=
    .await (fun w => [id].all w.loopEnded) (.done (.ok ()))
  have hrun : (removeControllerAndWait manager name).run now w =
      waiting.run now (w.unregister manager name).2 := by
    rw [removeControllerAndWait, Act.run_update, htaken]
    rfl
  rw [hrun]
  unfold waiting Act.run
  split <;> exact ⟨rfl, rfl⟩

/-- A watcher that is not the last goes, and nothing else happens. -/
theorem run_unregister_of_others (hcache : w.caches.get? cache = some c) {watcher : Watcher}
    (hlast : (c.unregister w.handlerAlive watcher).1 = false) (now : Nat) :
    ((WatcherCall.unregister watcher).act cache manager).run now w =
      (.ended (.ok ()), w.modifyCache cache fun _ => (c.unregister w.handlerAlive watcher).2) := by
  have hdrop : w.dropWatcher cache watcher =
      (false, w.modifyCache cache fun _ => (c.unregister w.handlerAlive watcher).2) := by
    rw [World.dropWatcher, hcache]
    exact congrArg (·, _) hlast
  rw [WatcherCall.act, unwatch, Act.run_update, hdrop]
  rfl

/-- The last watcher goes, and the sweep is taken out. -/
theorem run_unregister_of_last (hcache : w.caches.get? cache = some c) {watcher : Watcher}
    (hlast : (c.unregister w.handlerAlive watcher).1 = true)
    (hswept : (w.controllers manager).contains c.sweepName = true) (now : Nat) :
    (((WatcherCall.unregister watcher).act cache manager).run now w).1.Succeeds ∧
      (((WatcherCall.unregister watcher).act cache manager).run now w).2 =
        ((w.modifyCache cache fun _ => (c.unregister w.handlerAlive watcher).2).unregister manager
          c.sweepName).2 := by
  let without : World := w.modifyCache cache fun _ => (c.unregister w.handlerAlive watcher).2
  have hdrop : w.dropWatcher cache watcher = (true, without) := by
    rw [World.dropWatcher, hcache]
    exact congrArg (·, _) hlast
  have hstop : (stopSweep cache manager).run now without =
      (removeControllerAndWait manager c.sweepName).run now without := by
    rw [stopSweep, Act.run, get?_modifyCache hcache]
    exact congrArg (Act.run now · without) (if_pos hswept)
  rw [WatcherCall.act, unwatch, Act.run_update, hdrop]
  change ((stopSweep cache manager).run now without).1.Succeeds ∧
    ((stopSweep cache manager).run now without).2 = _
  rw [hstop]
  exact run_removeControllerAndWait (w := without) hswept now

end Runs

/-! ## Worlds that come about -/

/-- What others do while a cache is watched. They leave its watchers alone and the name of its sweep,
whose controller goes on as before, and a handler that was dropped is not kept again. Otherwise they may
do what they like. -/
structure Spares (cache manager : Nat) (calls : List WatcherCall) (w w' : World) : Prop where
  cached : ∀ c, w.caches.get? cache = some c →
    ∃ entries, w'.caches.get? cache = some { c with entries }
  known : (w.managers.get? manager).isSome = true → (w'.managers.get? manager).isSome = true
  name : ∀ c, w.caches.get? cache = some c →
    (w'.controllers manager).contains c.sweepName = (w.controllers manager).contains c.sweepName
  sweep : ∀ c spec, w.caches.get? cache = some c → w.Serves manager c.sweepName spec →
    w'.Serves manager c.sweepName spec
  dropped : ∀ watcher, .register watcher ∈ calls → w'.handlerAlive watcher.handler = true →
    w.handlerAlive watcher.handler = true

/-- **A handler is dropped**: it is kept no longer under its name. -/
theorem spares_dropHandler (cache manager : Nat) (calls : List WatcherCall) (w : World)
    (name : String) : Spares cache manager calls w (w.dropHandler name).2 where
  cached c hcache := ⟨c.entries, hcache⟩
  known := id
  name _ _ := rfl
  sweep _ _ _ := id
  dropped watcher _ halive := by
    have hnames : ∀ id, id ∈ (w.dropHandler name).2.handlerNames.values →
        id ∈ w.handlerNames.values := fun _ => KeyMap.mem_values_of_erase
    simp only [World.handlerAlive, Bool.or_eq_true, List.contains_iff_mem] at halive ⊢
    exact halive.imp_left (Or.imp_left (Or.imp_left (Or.imp_left (hnames _))))

/-- The worlds that come about while a cache is watched, from one in which nobody watches it and the
name of its sweep is free. Calls come one after the other, and each goes on until it ends or waits for
the end of the sweep. Before and after, and while it waits, others do what they do. -/
inductive Watched (cache manager : Nat) : List WatcherCall → World → Prop where
  | start {w : World} {c : Cache} (hcache : w.caches.get? cache = some c)
    (hmanager : (w.managers.get? manager).isSome = true) (hnobody : c.watchers = [])
    (hfree : (w.controllers manager).contains c.sweepName = false) : Watched cache manager [] w
  | call {calls : List WatcherCall} {w : World} (h : Watched cache manager calls w)
    (call : WatcherCall) :
    Watched cache manager (calls ++ [call]) ((call.act cache manager).run w.now w).2
  | others {calls : List WatcherCall} {w w' : World} (h : Watched cache manager calls w)
    (hspares : Spares cache manager calls w w') : Watched cache manager calls w'

/-- What is true of a cache that is watched. -/
structure Attended (cache manager : Nat) (calls : List WatcherCall) (w : World) (c : Cache) :
    Prop where
  cached : w.caches.get? cache = some c
  known : (w.managers.get? manager).isSome = true
  swept : c.watchers ≠ [] →
    w.Serves manager c.sweepName (sweepSpec c.sweepInterval (.sweep cache))
  unswept : c.watchers = [] → (w.controllers manager).contains c.sweepName = false
  standing : ∀ x ∈ c.watchers, Standing calls x
  kept : ∀ x, Standing calls x → w.handlerAlive x.handler = true → x ∈ c.watchers

namespace Attended

variable {cache manager : Nat} {calls : List WatcherCall} {w w' : World} {c : Cache}

theorem contains_iff (h : Attended cache manager calls w c) :
    (w.controllers manager).contains c.sweepName = true ↔ c.watchers ≠ [] := by
  constructor
  · intro hcontains hnobody
    rw [h.unswept hnobody] at hcontains
    cases hcontains
  · intro hsome
    obtain ⟨id, -, hid, -⟩ := h.swept hsome
    exact (KeyMap.contains_iff _ _).2 ⟨id, hid⟩

/-- **A watcher is registered.** The sweep starts if there is no other, and if it runs already, because
of handlers that were dropped, it is given its spec again. -/
theorem register (h : Attended cache manager calls w c) (x : Watcher) :
    Attended cache manager (calls ++ [.register x]) (w.addWatcher cache manager x)
      (c.register w.handlerAlive x).2 := by
  have hsome : (c.register w.handlerAlive x).2.watchers ≠ [] :=
    List.ne_nil_of_mem (Cache.mem_register.2 (.inr rfl))
  have hstanding : ∀ y ∈ (c.register w.handlerAlive x).2.watchers,
      Standing (calls ++ [.register x]) y := by
    intro y hy
    rw [standing_concat]
    rcases Cache.mem_register.1 hy with hliving | rfl
    · exact .inr ⟨h.standing y (Cache.mem_living.1 hliving).1, nofun⟩
    · exact .inl rfl
  have hkept : ∀ y, Standing (calls ++ [.register x]) y → w.handlerAlive y.handler = true →
      y ∈ (c.register w.handlerAlive x).2.watchers := by
    intro y hy halive
    rw [Cache.mem_register]
    rcases standing_concat.1 hy with heq | ⟨hbefore, -⟩
    · cases heq
      exact .inr rfl
    · exact .inl (Cache.mem_living.2 ⟨h.kept y hbefore halive, halive⟩)
  rw [addWatcher_eq h.cached]
  split
  · refine ⟨?_, World.isSome_register h.known, fun _ => World.serves_register h.known fun hname => ?_,
      fun hnobody => absurd hnobody hsome, hstanding, fun y hy halive => hkept y hy ?_⟩
    · rw [World.caches_register]
      exact get?_modifyCache h.cached _
    · exact ⟨_, h.swept (h.contains_iff.1 hname)⟩
    · have hbefore := World.handlerAlive_of_register rfl halive
      rwa [handlerAlive_modifyCache] at hbefore
  · next hfirst =>
    -- There is another watcher, so the sweep runs.
    have hbefore : c.watchers ≠ [] := by
      intro hnobody
      exact hfirst (Cache.register_first.2 (by rw [Cache.living, hnobody, List.filter_nil]))
    exact ⟨get?_modifyCache h.cached _, h.known, fun _ => h.swept hbefore,
      fun hnobody => absurd hnobody hsome, hstanding, hkept⟩

/-- **A watcher is taken out.** The sweep stops if there are none now and there were some. Then it is
there to be stopped. -/
theorem unregister (h : Attended cache manager calls w c) (x : Watcher) (now : Nat) :
    (((WatcherCall.unregister x).act cache manager).run now w).1.Succeeds ∧
      Attended cache manager (calls ++ [.unregister x])
        (((WatcherCall.unregister x).act cache manager).run now w).2
        (c.unregister w.handlerAlive x).2 := by
  have hstanding : ∀ y ∈ (c.unregister w.handlerAlive x).2.watchers,
      Standing (calls ++ [.unregister x]) y := by
    intro y hy
    obtain ⟨hliving, hne⟩ := Cache.mem_unregister.1 hy
    refine standing_concat.2 (.inr ⟨h.standing y (Cache.mem_living.1 hliving).1, ?_⟩)
    rintro ⟨⟩
    exact hne rfl
  have hkept : ∀ y, Standing (calls ++ [.unregister x]) y → w.handlerAlive y.handler = true →
      y ∈ (c.unregister w.handlerAlive x).2.watchers := by
    intro y hy halive
    obtain heq | ⟨hbefore, hcall⟩ := standing_concat.1 hy
    · cases heq
    · refine Cache.mem_unregister.2 ⟨Cache.mem_living.2 ⟨h.kept y hbefore halive, halive⟩, ?_⟩
      rintro rfl
      exact hcall rfl
  by_cases hlast : (c.unregister w.handlerAlive x).1 = true
  · obtain ⟨hsome, hnobody⟩ := Cache.unregister_last.1 hlast
    obtain ⟨hsucceeds, hworld⟩ :=
      run_unregister_of_last h.cached hlast (h.contains_iff.2 hsome) now
    refine ⟨hsucceeds, ?_⟩
    rw [hworld]
    refine ⟨?_, World.isSome_unregister h.known, fun hsome => absurd hnobody hsome, fun _ => ?_,
      hstanding, fun y hy halive => hkept y hy ?_⟩
    · rw [World.caches_unregister]
      exact get?_modifyCache h.cached _
    · exact (KeyMap.contains_eq_false_iff _ _).2 (World.get?_unregister_self _ _ _)
    · have hbefore := World.handlerAlive_of_unregister halive
      rwa [handlerAlive_modifyCache] at hbefore
  · rw [run_unregister_of_others h.cached (Bool.eq_false_iff.2 hlast)]
    refine ⟨rfl, get?_modifyCache h.cached _, h.known, fun hsome => h.swept ?_,
      fun hnobody => h.unswept ?_, hstanding, hkept⟩
    · obtain ⟨y, hy⟩ := List.exists_mem_of_ne_nil _ hsome
      exact List.ne_nil_of_mem (Cache.mem_living.1 (Cache.mem_unregister.1 hy).1).1
    · by_contra hsome
      exact hlast (Cache.unregister_last.2 ⟨hsome, hnobody⟩)

/-- **Others do something.** -/
theorem spared (h : Attended cache manager calls w c) (hspares : Spares cache manager calls w w') :
    ∃ entries, Attended cache manager calls w' { c with entries } := by
  obtain ⟨entries, hcached⟩ := hspares.cached c h.cached
  exact ⟨entries, hcached, hspares.known h.known,
    fun hsome => hspares.sweep c _ h.cached (h.swept hsome),
    fun hnobody => (hspares.name c h.cached).trans (h.unswept hnobody), h.standing,
    fun x hx halive => h.kept x hx (hspares.dropped x hx.mem halive)⟩

end Attended

/-- **A call comes to nothing bad**, and leaves what is true of the cache. -/
theorem Attended.call {cache manager : Nat} {calls : List WatcherCall} {w : World} {c : Cache}
    (h : Attended cache manager calls w c) (call : WatcherCall) :
    ((call.act cache manager).run w.now w).1.Succeeds ∧ ∃ c', Attended cache manager (calls ++ [call])
      ((call.act cache manager).run w.now w).2 c' := by
  cases call with
  | register x =>
      rw [run_register]
      exact ⟨rfl, _, h.register x⟩
  | unregister x =>
      obtain ⟨hsucceeds, hafter⟩ := h.unregister x w.now
      exact ⟨hsucceeds, _, hafter⟩

/-- **It is true in every world that comes about.** -/
theorem Watched.attended {cache manager : Nat} {calls : List WatcherCall} {w : World}
    (h : Watched cache manager calls w) : ∃ c, Attended cache manager calls w c := by
  induction h with
  | @start w c hcache hmanager hnobody hfree =>
      refine ⟨c, hcache, hmanager, fun hsome => absurd hnobody hsome, fun _ => hfree, ?_, ?_⟩
      · rw [hnobody]
        exact fun x hx => absurd hx List.not_mem_nil
      · exact fun x hx => absurd hx.mem List.not_mem_nil
  | call _ call ih =>
      obtain ⟨c, h⟩ := ih
      exact (h.call call).2
  | others _ hspares ih =>
      obtain ⟨c, h⟩ := ih
      obtain ⟨entries, hspared⟩ := h.spared hspares
      exact ⟨_, hspared⟩

/-- **A cache is swept while it is watched.** Whatever is asked of it about its watchers, whichever
handlers are dropped and whatever else others do, its sweep is registered exactly if it has watchers, and
then goes on with the spec that it is to have. Those in the list were registered and not taken out since,
and whoever was and has a handler that is kept is in the list. A call that takes the last one out finds
the sweep there, and no call fails. -/
theorem swept_while_watched {cache manager : Nat} {calls : List WatcherCall} {w : World}
    (h : Watched cache manager calls w) :
    ∃ c, w.caches.get? cache = some c ∧
      ((w.controllers manager).contains c.sweepName = true ↔ c.watchers ≠ []) ∧
      (c.watchers ≠ [] →
        w.Serves manager c.sweepName (sweepSpec c.sweepInterval (.sweep cache))) ∧
      (∀ x ∈ c.watchers, Standing calls x) ∧
      (∀ x, Standing calls x → w.handlerAlive x.handler = true → x ∈ c.watchers) ∧
      (∀ x, (c.unregister w.handlerAlive x).1 = true →
        (w.controllers manager).contains c.sweepName = true) ∧
      ∀ call : WatcherCall, ((call.act cache manager).run w.now w).1.Succeeds := by
  obtain ⟨c, h⟩ := h.attended
  refine ⟨c, h.cached, h.contains_iff, h.swept, h.standing, h.kept, fun x hlast => ?_,
    fun call => (h.call call).1⟩
  exact h.contains_iff.2 (Cache.unregister_last.1 hlast).1

/-- Two recorders watch a cache, and the first is dropped. After a call about a watcher that was never
there the cache is still swept for the second. -/
theorem swept_for_second_recorder :
    let start := (((World.new (.memory (.new defaultGrace)) .roundRobin (.ofSeconds 1)).openCache
      "c" defaultSweepInterval).openRecorder "first").openRecorder "second"
    let watched := (start.addWatcher 0 0 ⟨"a/", 0⟩).addWatcher 0 0 ⟨"b/", 1⟩
    let dropped := (watched.dropHandler "first").2
    let w := (((WatcherCall.unregister ⟨"x/", 1⟩).act 0 0).run dropped.now dropped).2
    Watched 0 0 [.register ⟨"a/", 0⟩, .register ⟨"b/", 1⟩, .unregister ⟨"x/", 1⟩] w ∧
      w.handlerAlive 0 = false ∧ w.handlerAlive 1 = true ∧ ∃ c, w.caches.get? 0 = some c ∧
        ⟨"b/", 1⟩ ∈ c.watchers ∧ (w.controllers 0).contains c.sweepName = true := by
  intro start watched dropped w
  have hstart : Watched 0 0 [] start :=
    .start (c := .new "c" defaultSweepInterval) rfl rfl rfl (by decide +kernel)
  have hwatched : Watched 0 0 [.register ⟨"a/", 0⟩, .register ⟨"b/", 1⟩] watched :=
    (hstart.call (.register ⟨"a/", 0⟩)).call (.register ⟨"b/", 1⟩)
  have hw : Watched 0 0 [.register ⟨"a/", 0⟩, .register ⟨"b/", 1⟩, .unregister ⟨"x/", 1⟩] w :=
    (hwatched.others (spares_dropHandler 0 0 _ watched "first")).call (.unregister ⟨"x/", 1⟩)
  have hsecond : w.handlerAlive 1 = true := by decide +kernel
  obtain ⟨c, hcache, hswept, -, -, hkept, -⟩ := swept_while_watched hw
  have hmem : ⟨"b/", 1⟩ ∈ c.watchers :=
    hkept _ ⟨[.register ⟨"a/", 0⟩], [.unregister ⟨"x/", 1⟩], rfl, by simp⟩ hsecond
  exact ⟨hw, by decide +kernel, hsecond, c, hcache, hmem, hswept.2 (List.ne_nil_of_mem hmem)⟩

end Simulation

end FleetControl
