import FleetControl.Proofs.Controller.Waits
import FleetControl.Proofs.Simulation.Alone
import FleetControl.Proofs.Simulation.Registrations
import FleetControl.Proofs.Simulation.Steady
import FleetControl.Simulation.Planes

/-!
# When a control plane stops looking

A control plane registers two controllers, the sweep of its cache and its informer. Each has an
interval of its own, which comes from the settings just as it was given there. Nothing asks that it
is not empty: of the three spans in the settings only the deadline of the agents' calls must not be.
To a controller an empty interval means that it runs once for each spec that it is given. So after a
good pass it waits for another spec, without end if nobody sends one. After a failed pass it waits
for the retry delay, whatever its interval is.

While a control plane starts it sleeps, in requests about orphans, and others take their turn. They
may do what they like to the world but for the new manager, cache and informer, which nobody else
has.

* `Loop.Polls` — after each pass a controller waits for a span that ends, a good pass with an empty
  interval apart; `Loop.polls_of_new` — new controllers that retry are like that;
* `Config.isZero_informerInterval_iff` and `Config.isZero_sweepInterval_iff` — when an environment
  leads to an empty interval;
* `Act.Ends` — what holds when an act ends, whatever others do while it waits;
* `Plane.Idle`, `Plane.Begun`, `Plane.Polls` — a control plane on its way;
* `polls_unless_interval_empty` — the controllers of a control plane.
-/

namespace FleetControl

open Simulation

/-! ## Controllers -/

variable {J : Type}

/-- A controller waits without end after a pass that it does not retry, if its interval is empty. -/
theorem ControllerSpec.nextWait_eq_none_iff (s : ControllerSpec J) (succeeded : Bool)
    (failures : Nat) :
    s.nextWait succeeded failures = none ↔
      (succeeded || s.noRetry) = true ∧ s.interval.isZero = true := by
  unfold nextWait
  cases succeeded || s.noRetry <;> cases s.interval.isZero <;> simp

/-- The course of a controller from where its loop stands. -/
def Course.ofLoop (l : Loop J) : Course J := ⟨l, l.spec, []⟩

/-- Whatever happens to a controller from now on, where any spec that it is given has one interval
and lets it retry: after each pass it waits for a span that ends, unless the pass was good and the
interval is empty. -/
def Loop.Polls (interval : Span) (l : Loop J) : Prop :=
  ∀ happenings,
    (∀ spec, .update spec ∈ happenings → spec.interval = interval ∧ spec.noRetry = false) →
    ∀ span, ((Course.ofLoop l).after happenings).loop.phase = .waiting span →
      ∃ earlier last, ((Course.ofLoop l).after happenings).passes = earlier ++ [last] ∧
        (span = none ↔ last.succeeded = true ∧ interval.isZero = true)

/-- **A new controller that retries polls**, also if it has lost its owner. -/
theorem Loop.polls_of_new {interval : Span} (name kind : String) (spec : ControllerSpec J)
    (hinterval : spec.interval = interval) (hretries : spec.noRetry = false) (lost : Bool) :
    ({ Loop.new name kind spec with disowned := lost } : Loop J).Polls interval := by
  intro happenings hupdates span hwaiting
  -- The loss of its owner is the first that has happened to it.
  let begun : List (Happening J) := if lost then [.disown] else []
  have hbegun : Course.ofLoop { Loop.new name kind spec with disowned := lost } =
      (Course.new name kind spec).after begun := by
    cases lost <;> rfl
  have hcourse : (Course.ofLoop { Loop.new name kind spec with disowned := lost }).after happenings =
      (Course.new name kind spec).after (begun ++ happenings) := by
    rw [hbegun]
    exact List.foldl_append.symm
  have hgiven : ∀ later, .update later ∈ begun ++ happenings →
      later.interval = interval ∧ later.noRetry = false := by
    intro later hlater
    rcases List.mem_append.1 hlater with hmem | hmem
    · cases lost <;> simp [begun] at hmem
    · exact hupdates later hmem
  rw [hcourse] at hwaiting ⊢
  obtain ⟨earlier, last, hpasses, hspan⟩ :=
    ((Course.Tallied.new name kind spec).after (begun ++ happenings)).waits span hwaiting
  obtain ⟨hsame, hlast⟩ :=
    ((Course.Given.new name kind ⟨hinterval, hretries⟩).after hgiven).passes last
      (hpasses ▸ List.mem_concat_self)
  refine ⟨earlier, last, hpasses, ?_⟩
  rw [hspan, ControllerSpec.nextWait_eq_none_iff, hsame, hlast, Bool.or_false]

/-! ## Settings -/

/-- What comes of one step after another comes of both. -/
theorem of_bind_eq_ok {ε α β : Type} {x : Except ε α} {f : α → Except ε β} {b : β}
    (h : x >>= f = .ok b) : ∃ a, x = .ok a ∧ f a = .ok b := by
  cases x with
  | error e => cases h
  | ok a => exact ⟨a, rfl, h⟩

namespace Config

/-- What an environment sets a variable to. -/
def value? (env : KeyMap Bytes) (setting : String) : Option String :=
  (env.get? setting).bind Utf8.decodeText?

/-- The span that an environment sets a variable to, or the one for want of it. -/
def spanOf (env : KeyMap Bytes) (setting : String) (fallback : Span) : Except ConfigError Span :=
  match value? env setting with
  | some text => seconds setting text
  | none => .ok fallback

/-- The spans in the settings of an environment. -/
theorem spans_of_ofEnvironment {env : KeyMap Bytes} {c : Config} (h : ofEnvironment env = .ok c) :
    spanOf env informerVariable standard.informerInterval = .ok c.informerInterval ∧
      spanOf env sweepVariable standard.sweepInterval = .ok c.sweepInterval ∧
      c.dispatchTimeout.isZero = false := by
  obtain ⟨informerInterval, hinformer, h⟩ := of_bind_eq_ok h
  obtain ⟨sweepInterval, hsweep, h⟩ := of_bind_eq_ok h
  obtain ⟨dispatchTimeout, -, h⟩ := of_bind_eq_ok h
  split at h
  · cases h
  · next hpositive =>
    have hend : ∀ {placement : Except ConfigError PlacementKind} {path : String}, (do
        let placement ← placement
        .ok ⟨path, informerInterval, sweepInterval, dispatchTimeout, placement⟩ :
          Except ConfigError Config) = .ok c →
          informerInterval = c.informerInterval ∧ sweepInterval = c.sweepInterval ∧
            dispatchTimeout = c.dispatchTimeout := by
      intro placement path h
      obtain ⟨_, -, h⟩ := of_bind_eq_ok h
      cases h
      exact ⟨rfl, rfl, rfl⟩
    have hsame : informerInterval = c.informerInterval ∧ sweepInterval = c.sweepInterval ∧
        dispatchTimeout = c.dispatchTimeout := by
      split at h
      · exact hend h
      · split at h <;> exact hend h
    obtain ⟨rfl, rfl, rfl⟩ := hsame
    exact ⟨hinformer, hsweep, Bool.eq_false_iff.2 hpositive⟩

/-- An environment sets a variable to zero seconds. -/
def SetsZero (env : KeyMap Bytes) (setting : String) : Prop :=
  ∃ text, value? env setting = some text ∧
    Text.readUnsigned Word.max64 (Text.trimChars text.toList) = .ok 0

/-- A span is empty exactly if it is set to zero, for there is another one for want of it. -/
theorem isZero_iff_of_spanOf {env : KeyMap Bytes} {setting : String} {fallback span : Span}
    (hfallback : fallback.isZero = false) (h : spanOf env setting fallback = .ok span) :
    span.isZero = true ↔ SetsZero env setting := by
  unfold spanOf at h
  unfold SetsZero
  cases hvalue : value? env setting with
  | none =>
      rw [hvalue] at h
      cases h
      simp [hfallback]
  | some text =>
      rw [hvalue] at h
      simp only [seconds] at h
      split at h
      · next n hn =>
        cases h
        have hzero : (Span.ofSeconds n).isZero = true ↔ n = 0 := by
          simp only [Span.isZero, Span.ofSeconds, Span.perSecond, beq_iff_eq]
          omega
        simp [hzero, hn]
      · cases h

/-- **When the informer's interval is empty.** -/
theorem isZero_informerInterval_iff {env : KeyMap Bytes} {c : Config}
    (h : ofEnvironment env = .ok c) :
    c.informerInterval.isZero = true ↔ SetsZero env informerVariable :=
  isZero_iff_of_spanOf rfl (spans_of_ofEnvironment h).1

/-- **When the sweep's interval is empty.** -/
theorem isZero_sweepInterval_iff {env : KeyMap Bytes} {c : Config}
    (h : ofEnvironment env = .ok c) : c.sweepInterval.isZero = true ↔ SetsZero env sweepVariable :=
  isZero_iff_of_spanOf rfl (spans_of_ofEnvironment h).2.1

end Config

/-- Settings that are accepted keep their intervals. -/
theorem PlaneSettings.intervals_of_build {s : PlaneSettings} {c : PlaneConfig}
    (h : s.build = .ok c) :
    c.informerInterval = s.informerInterval ∧ c.sweepInterval = s.sweepInterval := by
  unfold build at h
  split at h
  · cases h
  · split at h
    · cases h
    · split at h
      · cases h
      · cases h
        exact ⟨rfl, rfl⟩

/-- **The settings of an environment are accepted** where there are a store and a directory. -/
theorem PlaneSettings.build_withConfig {env : KeyMap Bytes} {c : Config}
    (h : Config.ofEnvironment env = .ok c) (store : String) :
    ({ initial.withConfig c with store := some store, hasDirectory := true } : PlaneSettings).build =
      .ok ⟨store, c.placement, c.informerInterval, c.sweepInterval, c.dispatchTimeout⟩ := by
  obtain ⟨-, -, hpositive⟩ := Config.spans_of_ofEnvironment h
  simp [build, withConfig, hpositive]

namespace Simulation

/-! ## What an act ends with -/

namespace Act

variable {α β : Type} {rely R : World → World → Prop} {post : α → World → Prop} {w w' : World}

/-- What holds when an act ends, from a world on, if others keep to something while it sleeps or
waits. An act that breaks off does not end. -/
def Ends (rely : World → World → Prop) (post : α → World → Prop) : Act World α → World → Prop
  | done a, w => post a w
  | crash, _ => True
  | read next, w => (next w).Ends rely post w
  | write change next, w => next.Ends rely post (change w)
  | sleep _ next, w => ∀ w', rely w w' → next.Ends rely post w'
  | await ready next, w => ∀ w', rely w w' → ready w' = true → next.Ends rely post w'

namespace Ends

/-- Two acts one after the other. -/
theorem bind {act : Act World α} {f : α → Act World β} {post : β → World → Prop}
    (h : act.Ends rely (fun a w => (f a).Ends rely post w) w) : (act >>= f).Ends rely post w := by
  change (act.bind f).Ends rely post w
  induction act generalizing w with
  | done a => exact h
  | crash => trivial
  | read next ih => exact ih _ h
  | write change next ih => exact ih h
  | sleep millis next ih => exact fun w' hrely => ih (h w' hrely)
  | await ready next ih => exact fun w' hrely hready => ih (h w' hrely hready)

theorem mono {post' : α → World → Prop} {act : Act World α} (h : act.Ends rely post w)
    (hpost : ∀ a w, post a w → post' a w) : act.Ends rely post' w := by
  induction act generalizing w with
  | done a => exact hpost a w h
  | crash => trivial
  | read next ih => exact ih _ h
  | write change next ih => exact ih h
  | sleep millis next ih => exact fun w' hrely => ih (h w' hrely)
  | await ready next ih => exact fun w' hrely hready => ih (h w' hrely hready)

/-- An act that nothing interrupts ends like that, too. -/
theorem alone {act : Act World α} (h : act.Ends rely post w)
    (hclock : ∀ w now, rely w { w with now }) {a : α} (hrun : act.alone w = (some a, w')) :
    post a w' := by
  induction act generalizing w with
  | done b =>
      cases hrun
      exact h
  | crash => cases hrun
  | read next ih => exact ih _ h hrun
  | write change next ih => exact ih h hrun
  | sleep millis next ih => exact ih (h _ (hclock w _)) hrun
  | await ready next ih =>
      simp only [Act.alone] at hrun
      split at hrun
      · next hready => exact ih (h w (hclock w w.now) hready) hrun
      · cases hrun

end Ends

/-- What the steps of an act keep, and others too, holds when it ends. -/
theorem Steady.ends {I : World → Prop} {act : Act World α} (h : act.Steady R w)
    (hsteps : ∀ w w', R w w' → I w → I w') (hrely : ∀ w w', rely w w' → I w → I w') (hw : I w) :
    act.Ends rely (fun _ w => I w) w := by
  induction act generalizing w with
  | done a => exact hw
  | crash => trivial
  | read next ih => exact ih _ h hw
  | write change next ih => exact ih h.2 (hsteps _ _ h.1 hw)
  | sleep millis next ih => exact fun w' hthere => ih (h w') (hrely _ _ hthere hw)
  | await ready next ih => exact fun w' hthere _ => ih (h w') (hrely _ _ hthere hw)

end Act

/-! ## Starting a control plane -/

/-- The numbers that the parts of a control plane get. -/
def World.nextPlane (w : World) : Plane :=
  ⟨w.managers.size, w.caches.size, w.schedulers.size, w.handlers.size, w.informers.size⟩

/-- Others leave the manager, the cache and the informer of a control plane alone while it starts,
for they do not have them yet. -/
structure Plane.Spared (p : Plane) (w w' : World) : Prop where
  manager : w'.managers.get? p.manager = w.managers.get? p.manager
  cache : w'.caches.get? p.cache = w.caches.get? p.cache
  informer : w'.informers.get? p.informer = w.informers.get? p.informer

/-- The informer of a control plane. -/
def Plane.watch (p : Plane) (c : PlaneConfig) : Informer :=
  ⟨workflowInformerName, workflowScope, p.handler, p.cache, p.manager, c.informerInterval⟩

/-- The name of the controller that sweeps the cache of a control plane. -/
def sharedSweepName : String := sweepKind ++ ":" ++ sharedCacheName

/-- The controller that sweeps the cache of a control plane, before its first pass. -/
def Plane.sweepLoop (p : Plane) (c : PlaneConfig) : Loop Job :=
  .new sharedSweepName sweepKind (sweepSpec c.sweepInterval (.sweep p.cache))

/-- The controller of the informer of a control plane, before its first pass. -/
def Plane.informerLoop (p : Plane) (c : PlaneConfig) : Loop Job :=
  .new workflowInformerName informerKind (p.watch c).spec

theorem Plane.polls_sweepLoop (p : Plane) (c : PlaneConfig) (lost : Bool) :
    ({ p.sweepLoop c with disowned := lost } : Loop Job).Polls c.sweepInterval :=
  Loop.polls_of_new sharedSweepName sweepKind (sweepSpec c.sweepInterval (Job.sweep p.cache))
    rfl rfl lost

theorem Plane.polls_informerLoop (p : Plane) (c : PlaneConfig) (lost : Bool) :
    ({ p.informerLoop c with disowned := lost } : Loop Job).Polls c.informerInterval :=
  Loop.polls_of_new workflowInformerName informerKind (p.watch c).spec rfl rfl lost

/-- A control plane whose parts are there and do nothing yet. -/
structure Plane.Idle (p : Plane) (c : PlaneConfig) (w : World) : Prop where
  manager : w.managers.get? p.manager = some .empty
  cache : w.caches.get? p.cache = some (.new sharedCacheName c.sweepInterval)
  informer : w.informers.get? p.informer = some (p.watch c)

/-- The sweep and the informer of a control plane are its controllers, and they poll. -/
def Plane.Polls (p : Plane) (informerInterval sweepInterval : Span) (w : World) : Prop :=
  ∃ sweep informer : Loop Job, w.registered p.manager = [sweep, informer] ∧
    sweep.name = sharedSweepName ∧ sweep.Polls sweepInterval ∧
    informer.name = workflowInformerName ∧ informer.Polls informerInterval

namespace World

variable {w : World}

/-- To disown the controllers of the managers that nobody keeps changes nothing else about them. -/
theorem get?_disownLost {id : Nat} {l : Loop Job} (h : w.loops.get? id = some l) :
    ∃ lost, w.disownLost.loops.get? id = some { l with disowned := lost } := by
  have hall : ∀ (ids : List Nat) (loops : Arena (Loop Job)) (l : Loop Job), loops.get? id = some l →
      ∃ lost, (ids.foldl (fun loops id => loops.modify id Loop.disown) loops).get? id =
        some { l with disowned := lost } := by
    intro ids
    induction ids with
    | nil => exact fun loops l h => ⟨l.disowned, h⟩
    | cons other rest ih =>
        intro loops l h
        rw [List.foldl_cons]
        by_cases hother : id = other
        · obtain ⟨lost, hlost⟩ := ih (loops.modify other Loop.disown) l.disown
            (by rw [Arena.get?_modify, if_pos hother, h]; rfl)
          exact ⟨lost, hlost⟩
        · exact ih _ l (by rw [Arena.get?_modify, if_neg hother, h])
  exact hall _ _ l h

end World

section Starting

variable {w w' : World} {p : Plane} {c : PlaneConfig}

/-- **The parts of a control plane are added.** -/
theorem idle_addPlane (w : World) (c : PlaneConfig) :
    (w.addPlane c).1 = w.nextPlane ∧ w.nextPlane.Idle c (w.addPlane c).2 :=
  ⟨rfl, Arena.get?_add_self _ _, Arena.get?_add_self _ _, Arena.get?_add_self _ _⟩

/-- The clock goes on. -/
theorem Plane.spared_clock (p : Plane) (w : World) (now : Nat) : p.Spared w { w with now } :=
  ⟨rfl, rfl, rfl⟩

theorem Plane.Idle.spared (h : p.Idle c w) (hspared : p.Spared w w') : p.Idle c w' :=
  ⟨hspared.manager.trans h.manager, hspared.cache.trans h.cache,
    hspared.informer.trans h.informer⟩

/-- Requests of the control plane leave its parts alone. -/
theorem Served.spared (h : Served w w') (p : Plane) : p.Spared w w' := by
  obtain ⟨-, hrest⟩ := h
  rw [hrest]
  exact ⟨rfl, rfl, rfl⟩

/-- The two controllers of a control plane have just been registered, the sweep first. -/
structure Plane.Begun (p : Plane) (c : PlaneConfig) (sweep : Nat) (w : World) : Prop where
  manager : w.managers.get? p.manager = some
    ((KeyMap.empty.insert sharedSweepName sweep).insert workflowInformerName
      (sweep + 1))
  sweeps : w.loops.get? sweep = some (p.sweepLoop c)
  informs : w.loops.get? (sweep + 1) = some (p.informerLoop c)

/-- The first watcher of a cache starts its sweep. -/
theorem Plane.Idle.addWatcher (h : p.Idle c w) :
    ∃ caches, w.addWatcher p.cache p.manager (p.watch c).watcher = { w with
      caches
      loops := (w.loops.add (p.sweepLoop c)).2
      managers := w.managers.modify p.manager fun m =>
        m.insert sharedSweepName w.loops.size } := by
  let watched : Cache :=
    { Cache.new sharedCacheName c.sweepInterval with watchers := [(p.watch c).watcher] }
  refine ⟨(w.modifyCache p.cache fun _ => watched).caches, ?_⟩
  have hregistered : (Cache.new sharedCacheName c.sweepInterval).register w.handlerAlive
      (p.watch c).watcher = (true, watched) := rfl
  have hcache : (w.modifyCache p.cache fun _ => watched).caches.get? p.cache = some watched := by
    rw [World.modifyCache, Arena.get?_modify, if_pos rfl, h.cache, Option.map_some]
  have hfree : ((w.modifyCache p.cache fun _ => watched).controllers p.manager).get?
      watched.sweepName = none := by
    have hempty : (w.modifyCache p.cache fun _ => watched).controllers p.manager = .empty :=
      World.controllers_eq h.manager
    rw [hempty, KeyMap.get?_empty]
  rw [World.addWatcher, h.cache]
  simp only [hregistered, if_true]
  rw [World.startSweep, hcache]
  exact World.register_of_free hfree _ _

/-- **The informer of a new control plane runs**: its cache is watched, so there are two
controllers. -/
theorem Plane.Idle.runInformer (h : p.Idle c w) (rely : World → World → Prop) :
    (runInformer (p.watch c)).Ends rely (fun _ w' => p.Begun c w.loops.size w') w := by
  obtain ⟨caches, hwatched⟩ := h.addWatcher
  change p.Begun c w.loops.size ((w.addWatcher p.cache p.manager (p.watch c).watcher).register
    p.manager workflowInformerName informerKind (p.watch c).spec).2
  have hknown : (w.managers.get? p.manager).isSome = true := by rw [h.manager]; rfl
  have hsweep := World.get?_managers_of_modify hknown (congrArg World.managers hwatched)
  rw [World.controllers_eq h.manager] at hsweep
  have hfree : ((w.addWatcher p.cache p.manager (p.watch c).watcher).controllers p.manager).get?
      workflowInformerName = none := by
    rw [World.controllers_eq hsweep, KeyMap.get?_insert_of_ne _ (by decide), KeyMap.get?_empty]
  rw [World.register_of_free hfree]
  have hloops : (w.addWatcher p.cache p.manager (p.watch c).watcher).loops =
      (w.loops.add (p.sweepLoop c)).2 := by rw [hwatched]
  have hsize : (w.addWatcher p.cache p.manager (p.watch c).watcher).loops.size =
      w.loops.size + 1 := by
    rw [hloops]
    exact List.length_append
  refine ⟨?_, ?_, ?_⟩
  · rw [Arena.get?_modify, if_pos rfl, hsweep, hsize]
    rfl
  · rw [Arena.get?_add_of_lt (by omega), hloops, Arena.get?_add_self]
  · rw [← hsize, Arena.get?_add_self]
    rfl

/-- The controllers that have just been registered poll, also if they lose their owner at once. -/
theorem Plane.Begun.polls {sweep : Nat} (h : p.Begun c sweep w) (plane : Option Plane) :
    p.Polls c.informerInterval c.sweepInterval { w with plane }.disownLost := by
  obtain ⟨lost, hsweep⟩ := World.get?_disownLost (w := { w with plane }) h.sweeps
  obtain ⟨lost', hinformer⟩ := World.get?_disownLost (w := { w with plane }) h.informs
  have hcontrollers : ({ w with plane } : World).disownLost.controllers p.manager =
      (KeyMap.empty.insert sharedSweepName sweep).insert workflowInformerName (sweep + 1) :=
    World.controllers_eq h.manager
  have hvalues : ((KeyMap.empty.insert sharedSweepName sweep).insert workflowInformerName
      (sweep + 1)).values = [sweep, sweep + 1] := rfl
  refine ⟨{ p.sweepLoop c with disowned := lost }, { p.informerLoop c with disowned := lost' },
    ?_, rfl, p.polls_sweepLoop c lost, rfl, p.polls_informerLoop c lost'⟩
  rw [World.registered, hcontrollers, hvalues, List.filterMap_cons_some hsweep,
    List.filterMap_cons_some hinformer, List.filterMap_nil]

/-- **A control plane starts**, and its controllers poll, whatever comes of the orphans before. -/
theorem ends_startPlane (c : PlaneConfig) (w : World) :
    (startPlane c).Ends w.nextPlane.Spared
      (fun p w' => p.Polls c.informerInterval c.sweepInterval w') w := by
  obtain ⟨hplane, hidle⟩ := idle_addPlane w c
  refine Act.Ends.bind ?_
  simp only [Act.update, Act.Ends, hplane]
  refine Act.Ends.bind ?_
  -- Neither the requests about orphans nor others touch the new parts.
  have hcontrol : (control w.nextPlane.scheduler reconcileOrphans).Ends w.nextPlane.Spared
      (fun _ w' => w.nextPlane.Idle c w') (w.addPlane c).2 :=
    (steady_control _ _).ends (fun _ _ h hidle => hidle.spared (h.spared _))
      (fun _ _ h hidle => hidle.spared h) hidle
  refine hcontrol.mono fun _ w' hidle => Act.Ends.bind ?_
  have hfound : w.nextPlane.findInformer w' = some (w.nextPlane.watch c) := hidle.informer
  simp only [Act.get, Act.Ends, hfound]
  refine Act.Ends.bind ((hidle.runInformer _).mono fun _ w hbegun => ?_)
  exact hbegun.polls _

end Starting

/-- **A control plane polls unless an interval is empty.** The settings of every environment that is
accepted are accepted for a control plane. When a control plane has started, with these or with any
settings that are accepted, and whatever others did meanwhile, its controllers are the sweep and the
informer. Whatever happens to one of them from then on, after each pass it waits for a span that
ends, unless the pass was good and its interval is empty. The intervals are those of the settings,
and an environment makes one empty exactly by setting it to zero. -/
theorem polls_unless_interval_empty :
    (∀ env c, Config.ofEnvironment env = .ok c →
      (c.informerInterval.isZero = true ↔ Config.SetsZero env Config.informerVariable) ∧
        (c.sweepInterval.isZero = true ↔ Config.SetsZero env Config.sweepVariable) ∧
          ∀ w, (openPlane c).Ends w.nextPlane.Spared (fun outcome w' => ∃ p, outcome = .ok p ∧
            p.Polls c.informerInterval c.sweepInterval w') w) ∧
      ∀ (s : PlaneSettings) c, s.build = .ok c → ∀ w, (startPlane c).Ends w.nextPlane.Spared
        (fun p w' => p.Polls s.informerInterval s.sweepInterval w') w := by
  refine ⟨fun env c haccepted => ⟨Config.isZero_informerInterval_iff haccepted,
    Config.isZero_sweepInterval_iff haccepted, fun w => ?_⟩, fun s c hbuild w => ?_⟩
  · have hnext : (w.reopenTable defaultGrace).nextPlane = w.nextPlane := by
      unfold World.reopenTable
      split <;> rfl
    refine Act.Ends.bind (Act.Ends.bind ?_)
    simp only [Act.get, Act.Ends, PlaneSettings.build_withConfig haccepted]
    rw [← hnext]
    exact Act.Ends.bind ((ends_startPlane _ _).mono fun p w hpolls => ⟨p, rfl, hpolls⟩)
  · obtain ⟨hinformer, hsweep⟩ := PlaneSettings.intervals_of_build hbuild
    rw [← hinformer, ← hsweep]
    exact ends_startPlane c w

/-- A control plane is opened with the settings of an empty environment. -/
theorem standard_settings_poll :
    let w := World.new (.memory (.new defaultGrace)) .roundRobin (.ofSeconds 30)
    Config.ofEnvironment .empty = .ok .standard ∧
      ∃ p w', (openPlane .standard).alone w = (some (.ok p), w') ∧
        p.Polls (.ofSeconds 15) (.ofSeconds 30) w' := by
  intro w
  have haccepted : Config.ofEnvironment .empty = .ok .standard := by decide
  obtain ⟨p, hp⟩ : ∃ p, ((openPlane .standard).alone w).1 = some (.ok p) := ⟨_, rfl⟩
  have hrun : (openPlane .standard).alone w =
      (some (.ok p), ((openPlane .standard).alone w).2) := Prod.ext hp rfl
  obtain ⟨-, -, hopens⟩ := polls_unless_interval_empty.1 _ _ haccepted
  obtain ⟨q, hq, hpolls⟩ := (hopens w).alone w.nextPlane.spared_clock hrun
  obtain rfl := Except.ok.inj hq
  exact ⟨haccepted, p, _, hrun, hpolls⟩

/-- With an interval of zero seconds for the informer, its controller waits without end once it was
started and its first pass was good. -/
theorem empty_interval_waits_without_end :
    ¬ ∀ env c, Config.ofEnvironment env = .ok c → ∀ w p w',
      (openPlane c).alone w = (some (.ok p), w') → ∀ l ∈ w'.registered p.manager,
        ∀ span, ((Course.ofLoop l).after [.start, .endPass .first (.ok ())]).loop.phase =
          .waiting span → span ≠ none := by
  intro h
  let env : KeyMap Bytes := KeyMap.empty.insert Config.informerVariable (Utf8.encodeChars ['0'])
  let c : Config := { Config.standard with informerInterval := .ofSeconds 0 }
  have haccepted : Config.ofEnvironment env = .ok c := by decide
  let w := World.new (.memory (.new defaultGrace)) .roundRobin (.ofSeconds 30)
  obtain ⟨p, hp⟩ : ∃ p, ((openPlane c).alone w).1 = some (.ok p) := ⟨_, rfl⟩
  have hmanager : p.manager = 1 := by
    cases hp
    rfl
  let phases := (((openPlane c).alone w).2.registered 1).map fun l =>
    ((Course.ofLoop l).after [.start, .endPass .first (.ok ())]).loop.phase
  have hphases : phases = [.waiting (some (.ofSeconds 30)), .waiting none] := by decide +kernel
  have hmem : .waiting none ∈ phases := by
    rw [hphases]
    exact List.mem_cons_of_mem _ List.mem_cons_self
  obtain ⟨l, hl, hphase⟩ := List.mem_map.1 hmem
  exact h env c haccepted w p _ (Prod.ext hp rfl) l (hmanager ▸ hl) none hphase rfl

end Simulation

end FleetControl
