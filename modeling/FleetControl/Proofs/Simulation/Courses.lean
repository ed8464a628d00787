import FleetControl.Proofs.Simulation.Work
import FleetControl.Simulation.Planes

/-!
# The controllers of a simulated world

Whatever a machine does, each of its controllers is somewhere in a course: it was new once, and since
then only what can happen to a controller has happened to it. So what is said of the life of a
controller is said of every controller of a machine.

* `Loop.Lived` — a loop somewhere in a course;
* `World.Lived` — a world all of whose controllers are, which stays so while they work;
* `steady_updateController` and what follows — the acts that keep every controller in its course;
* `every_controller_lives` — the controllers of a machine that started with none.
-/

namespace FleetControl

/-! ## Loops in a course -/

namespace Loop

variable {J : Type} {l l' : Loop J}

/-- A loop somewhere in a course. -/
def Lived (l : Loop J) : Prop :=
  ∃ name kind spec happenings, ((Course.new name kind spec).after happenings).loop = l

theorem lived_new (name kind : String) (spec : ControllerSpec J) : (new name kind spec).Lived :=
  ⟨name, kind, spec, [], rfl⟩

/-- **What can happen to a loop** takes it on in its course. -/
theorem Lived.happen (h : l.Lived) (happening : Happening J)
    (hhappens : l.happen? happening = some l') : l'.Lived := by
  obtain ⟨name, kind, spec, happenings, rfl⟩ := h
  refine ⟨name, kind, spec, happenings ++ [happening], ?_⟩
  unfold Course.after at hhappens ⊢
  rw [List.foldl_append, List.foldl_cons, List.foldl_nil, Course.step.eq_def, hhappens]

end Loop

namespace Simulation

/-! ## Worlds -/

/-- All controllers of a world are in their courses. -/
def World.Lived (w : World) : Prop := ∀ id l, w.loops.get? id = some l → l.Lived

/-- An act may do this: controllers stay in their courses. -/
def Goes (w w' : World) : Prop := w.Lived → w'.Lived

/-- Controllers are the same. -/
def SameLoops (w w' : World) : Prop := w'.loops = w.loops

theorem SameLoops.goes {w w' : World} (h : SameLoops w w') : Goes w w' := by
  intro hlived
  unfold World.Lived
  rw [h]
  exact hlived

namespace World.Lived

variable {w : World}

theorem new (backend : Backend) (placement : PlacementKind) (deadline : Span) :
    (World.new backend placement deadline).Lived := by
  intro id l hget
  simp [World.new, Arena.get?, Arena.empty] at hget

/-- One controller is changed. -/
theorem modifyLoop (h : w.Lived) (id : Nat) {f : Loop Job → Loop Job}
    (hf : ∀ l, w.loops.get? id = some l → l.Lived → (f l).Lived) : (w.modifyLoop id f).Lived := by
  intro j l hget
  simp only [World.modifyLoop, Arena.get?_modify] at hget
  split at hget
  · next heq =>
    subst heq
    obtain ⟨before, hbefore, rfl⟩ := Option.map_eq_some_iff.1 hget
    exact hf before hbefore (h j before hbefore)
  · exact h j l hget

/-- Controllers are given the stop signal one after the other. -/
theorem signalStops (h : w.Lived) (ids : List Nat) :
    (ids.foldl (fun w id => w.modifyLoop id Loop.signalStop) w).Lived := by
  induction ids generalizing w with
  | nil => exact h
  | cons id rest ih => exact ih (h.modifyLoop id fun l _ hl => hl.happen .signalStop rfl)

/-- The controllers of managers that nobody keeps are disowned. -/
theorem disownLost (h : w.Lived) : w.disownLost.Lived := by
  have hall : ∀ (ids : List Nat) (w : World), w.Lived →
      ({ w with loops := ids.foldl (fun loops id => loops.modify id Loop.disown) w.loops } :
        World).Lived := by
    intro ids
    induction ids with
    | nil => exact fun w h => h
    | cons id rest ih =>
        exact fun w h => ih _ (h.modifyLoop id fun l _ hl => hl.happen .disown rfl)
  exact hall _ w h

/-- A controller is new, or is given a spec. -/
theorem register (h : w.Lived) (manager : Nat) (name kind : String) (spec : ControllerSpec Job) :
    (w.register manager name kind spec).2.Lived := by
  unfold World.register
  split
  · exact h.modifyLoop _ fun l _ hl => hl.happen (.update spec) rfl
  · intro id l hget
    change (w.loops.items ++ [Loop.new name kind spec])[id]? = some l at hget
    rw [List.getElem?_append] at hget
    split at hget
    · exact h id l hget
    · obtain rfl := List.mem_singleton.1 (List.mem_of_getElem? hget)
      exact Loop.lived_new name kind spec

theorem unregister (h : w.Lived) (manager : Nat) (name : String) :
    (w.unregister manager name).2.Lived := by
  unfold World.unregister
  split
  · exact h
  · exact h.modifyLoop _ fun l _ hl => hl.happen .signalStop rfl

end World.Lived

/-- **Being in a course** is about controllers only, and a controller that takes a step stays in its
course. -/
theorem kept_lived : Kept World.Lived := by
  refine ⟨fun hsame h => SameLoops.goes hsame.loops h, fun happening h hget _ hhappens => ?_⟩
  refine h.modifyLoop _ fun l' hget' hl => ?_
  obtain rfl := Option.some.inj (hget.symm.trans hget')
  exact hl.happen happening hhappens

/-! ## Acts of the owners of controllers -/

section Owners

variable {w : World} {manager cache : Nat} {name kind : String} {watcher : Watcher}

/-- Loops are as after another world. -/
theorem Goes.of_loops {w w' w'' : World} (h : Goes w w') (hloops : w''.loops = w'.loops) :
    Goes w w'' := fun hlived => SameLoops.goes hloops (h hlived)

theorem goes_unregisterAll (w : World) : Goes w (w.unregisterAll manager).2 :=
  Goes.of_loops (fun h => h.signalStops (w.controllers manager).values) rfl

theorem goes_startSweep (w : World) : Goes w (w.startSweep cache manager) := by
  unfold World.startSweep
  split
  · exact id
  · exact fun h => h.register _ _ _ _

theorem goes_addWatcher (w : World) : Goes w (w.addWatcher cache manager watcher) := by
  unfold World.addWatcher
  split
  · exact id
  · dsimp only
    split
    · exact fun h => goes_startSweep _ (SameLoops.goes rfl h)
    · exact SameLoops.goes rfl

theorem goes_dropWatcher (w : World) : Goes w (w.dropWatcher cache watcher).2 := by
  unfold World.dropWatcher
  split
  · exact id
  · exact SameLoops.goes rfl

/-- What somebody keeps has changed. -/
theorem SameLoops.goes_disownLost {w w' : World} (h : SameLoops w w') : Goes w w'.disownLost :=
  fun hlived => (h.goes hlived).disownLost

theorem goes_openInformer (w : World) (i : Informer) : Goes w (w.openInformer i) :=
  SameLoops.goes_disownLost rfl

theorem goes_dropInformer (w : World) : Goes w (w.dropInformer name).2 :=
  SameLoops.goes_disownLost rfl

theorem goes_keepPlane (plane : Option Plane) (w : World) : Goes w { w with plane }.disownLost :=
  SameLoops.goes_disownLost (w := w) rfl

theorem steady_updateController (spec : ControllerSpec Job) :
    (updateController manager name kind spec).Steady Goes w :=
  steady_of_register fun h => h.register _ _ _ _

theorem steady_removeController : (removeController manager name).Steady Goes w :=
  (steady_of_unregister fun h => h.unregister _ _).1

theorem steady_removeControllerAndWait : (removeControllerAndWait manager name).Steady Goes w :=
  (steady_of_unregister fun h => h.unregister _ _).2

theorem steady_removeAll : (removeAll manager).Steady Goes w :=
  (steady_of_unregisterAll (goes_unregisterAll w)).1

theorem steady_removeAllAndWait : (removeAllAndWait manager).Steady Goes w :=
  (steady_of_unregisterAll (goes_unregisterAll w)).2

theorem steady_replaceManager : replaceManager.Steady Goes w :=
  Act.steady_modify (SameLoops.goes_disownLost rfl)

theorem steady_stopSweep : (stopSweep cache manager).Steady Goes w := by
  unfold stopSweep
  simp only [Act.Steady]
  split
  · trivial
  · split
    · exact steady_removeControllerAndWait
    · trivial

theorem steady_watch : (watch cache manager watcher).Steady Goes w :=
  Act.steady_modify (goes_addWatcher w)

theorem steady_unwatch : (unwatch cache manager watcher).Steady Goes w := by
  refine (Act.steady_update (goes_dropWatcher w)).bind fun last w => ?_
  cases last with
  | true => exact steady_stopSweep
  | false => trivial

theorem steady_runInformer (i : Informer) : (runInformer i).Steady Goes w :=
  steady_watch.bind fun _ _ => (steady_updateController _).bind fun _ _ => trivial

theorem steady_stopInformer (i : Informer) : (stopInformer i).Steady Goes w := by
  refine steady_removeControllerAndWait.bind fun taken w => ?_
  split
  · exact steady_unwatch
  · exact steady_unwatch
  · trivial

/-- **A control plane starts**: it takes off orphans, registers its informer and replaces the one
before. -/
theorem steady_startPlane (c : PlaneConfig) : (startPlane c).Steady Goes w := by
  have hadd : SameLoops w (w.addPlane c).2 := rfl
  refine (Act.steady_update hadd.goes).bind fun p w => ?_
  refine ((steady_control _ _).mono fun _ _ h => SameLoops.goes h.sameControllers.loops).bind fun _ w => ?_
  refine Act.Steady.bind (Act.steady_get p.findInformer) fun informer w => ?_
  have hend : ∀ w, (do
      Act.modify fun w => { w with plane := some p }.disownLost
      pure p : Act World Plane).Steady Goes w := fun w =>
    Act.Steady.bind (Act.steady_modify (goes_keepPlane (some p) w)) fun _ _ => trivial
  cases informer with
  | none => exact hend w
  | some i => exact (steady_runInformer i).bind fun _ w => hend w

/-- **A control plane starts on the table**, which is opened again. -/
theorem steady_openPlane (c : Config) : (openPlane c).Steady Goes w := by
  have hreopened : SameLoops w (w.reopenTable defaultGrace) := by
    unfold World.reopenTable
    split <;> rfl
  refine (Act.steady_modify hreopened.goes).bind fun _ w => ?_
  refine Act.Steady.bind (Act.steady_get _) fun settings w => ?_
  cases settings.build with
  | error e => trivial
  | ok config => exact (steady_startPlane config).bind fun _ _ => trivial

/-- **A control plane shuts down**: its informer goes, then every controller that is left. -/
theorem steady_shutDown (p : Plane) : p.shutDown.Steady Goes w := by
  have hend : ∀ w, (do
      removeAllAndWait p.manager
      Act.modify fun w => { w with plane := none }.disownLost : Act World Unit).Steady Goes w :=
    fun w => steady_removeAllAndWait.bind fun _ w => Act.steady_modify (goes_keepPlane none w)
  refine Act.Steady.bind (Act.steady_get p.findInformer) fun informer w => ?_
  cases informer with
  | none => exact hend w
  | some i => exact (steady_stopInformer i).bind fun _ w => hend w

end Owners

/-- **Every controller of a machine lives a life of a controller**, whatever acts are run on the
machine one after the other: what became of it is what becomes of a new controller through some
happenings. -/
theorem every_controller_lives {α : Type} (backend : Backend) (placement : PlacementKind)
    (deadline : Span) {acts : List (Act World α)} (hacts : ∀ act ∈ acts, ∀ w, act.Steady Goes w)
    {id : Nat} {l : Loop Job}
    (hget : (acts.foldl (fun (m : Machine) act => (m.perform act).2)
      (.new (.new backend placement deadline))).world.loops.get? id = some l) :
    ∃ name kind spec happenings, ((Course.new name kind spec).after happenings).loop = l :=
  have hnew : (Machine.new (.new backend placement deadline)).Holds (.ofWorld World.Lived) :=
    .new (.new backend placement deadline)
  (hnew.performAll kept_lived.lawful fun act hmem w =>
    (hacts act hmem w).mono fun _ _ => Preserves.allows).world id l hget

end Simulation

end FleetControl
