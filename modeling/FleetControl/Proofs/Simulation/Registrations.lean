import FleetControl.Proofs.KeyMap
import FleetControl.Proofs.Simulation.Work

/-!
# The names of controllers

A manager has one controller under each name, and a name that is registered again gives its spec to the
controller that has it. That controller does not end while it is registered, and after every wait it
runs the spec that was given last.

To take a controller out frees its name at once, when the controller may still be in a pass, and a new
controller may begin its own. So two passes of one name can be under way together; but then the older
controller was taken out before the newer was started, it begins no further pass, and its name was
registered again before it had ended. The waiting forms of the calls come back when what they took out
has ended, so that nothing of it is left when the name is registered again.

* `ManagerCall`, `ManagerLog` — what a manager is asked to do, and the controllers started for that;
* `Reached` — the worlds that come about while a manager is called and its controllers work, in
  whatever order;
* `Registry` — what is true of them, `Registry.carries` and `Registry.starts` what keeps it true;
* `ended_of_removeControllerAndWait`, `ended_of_removeAllAndWait` — the waiting forms wait;
* `every_manager_is_reached` — what a machine does with a manager is among this;
* `one_controller_for_each_name` — the controllers of a name.
-/

namespace FleetControl

/-! ## A controller that is registered -/

namespace Loop

variable {J : Type} {l l' : Loop J} {spec : ControllerSpec J} {happening : Happening J}

/-- A controller that has an owner and goes on, and the spec that it was given last. -/
structure Serves (l : Loop J) (spec : ControllerSpec J) : Prop where
  unstopped : l.stopSignal = false
  owned : l.disowned = false
  unending : l.phase ≠ .stopping ∧ l.phase ≠ .ended
  given : l.pending.getD l.spec = spec
  unstarted : l.phase = .fresh → l.pending = none

/-- A controller later on: it has its name, and if it had the stop signal or had ended it still has.
-/
structure Ages (l l' : Loop J) : Prop where
  name : l'.name = l.name
  stopped : l.stopSignal = true → l'.stopSignal = true
  ended : l.phase = .ended → l'.phase = .ended

theorem Ages.refl (l : Loop J) : l.Ages l := ⟨rfl, id, id⟩

theorem ages_signalStop (l : Loop J) : l.Ages l.signalStop := ⟨rfl, fun _ => rfl, id⟩

theorem ages_update (l : Loop J) (spec : ControllerSpec J) : l.Ages (l.update spec) := by
  unfold update
  split <;> exact ⟨rfl, id, id⟩

theorem ages_of_own (hown : happening.Own) (h : l.happen? happening = some l') : l.Ages l' := by
  cases step_of_happen h with
  | update | signalStop | disown => exact hown.elim
  | start hphase | resume hphase | endPass hphase | beginStop hphase =>
      exact ⟨rfl, id, fun hended => by simp [hended] at hphase⟩
  | endStop => exact ⟨rfl, id, fun _ => rfl⟩

theorem serves_new (name kind : String) (spec : ControllerSpec J) :
    (new name kind spec).Serves spec :=
  ⟨rfl, rfl, ⟨nofun, nofun⟩, rfl, fun _ => rfl⟩

namespace Serves

/-- A controller is given another spec. -/
theorem update (h : l.Serves spec) (later : ControllerSpec J) : (l.update later).Serves later := by
  unfold Loop.update
  split
  · next hfresh =>
    exact ⟨h.unstopped, h.owned, h.unending, by simp [h.unstarted hfresh], h.unstarted⟩
  · next hrun => exact ⟨h.unstopped, h.owned, h.unending, rfl, fun hfresh => absurd hfresh hrun⟩

/-- **A registered controller that takes a step** goes on, and if it was not in a pass it begins one
with the spec that it was given last. -/
theorem step (h : l.Serves spec) (hown : happening.Own) (hhappens : l.happen? happening = some l') :
    l'.Serves spec ∧ (l.phase ≠ .passing → l'.phase = .passing ∧ l'.spec = spec) := by
  cases step_of_happen hhappens with
  | update | signalStop | disown => exact hown.elim
  | start | resume =>
      exact ⟨⟨h.unstopped, h.owned, ⟨nofun, nofun⟩, h.given, nofun⟩, fun _ => ⟨rfl, h.given⟩⟩
  | endPass hphase =>
      exact ⟨⟨h.unstopped, h.owned, ⟨nofun, nofun⟩, h.given, nofun⟩, fun hnot => absurd hphase hnot⟩
  | beginStop _ hwhy => simp [h.unstopped, h.owned] at hwhy
  | endStop hphase => exact absurd hphase h.unending.1

/-- A spec that the controller has not seen ends its wait at once. -/
theorem wake_eq (h : l.Serves spec) (hpending : l.pending.isSome = true) (elapsed : Bool) :
    l.wake elapsed = some l.beginPass := by
  obtain ⟨later, hlater⟩ := Option.isSome_iff_exists.1 hpending
  simp [wake_of_pending hlater, beginPass, hlater, h.unstopped]

end Serves

/-- **A controller that was given the stop signal** begins no further pass. -/
theorem not_passing_of_stopped (hstop : l.stopSignal = true) (hfresh : l.phase ≠ .fresh)
    (hown : happening.Own) (hhappens : l.happen? happening = some l') : l'.phase ≠ .passing := by
  cases step_of_happen hhappens with
  | update | signalStop | disown => exact hown.elim
  | start hphase => exact absurd hphase hfresh
  | resume _ hgoes => simp [hstop] at hgoes
  | endPass | beginStop | endStop => exact nofun

end Loop

namespace Simulation

/-! ## Calls of a manager -/

/-- What a manager is asked to do. The forms that wait for the end of what they take out make the same
calls. -/
inductive ManagerCall where
  /-- Register a controller under a name, or give the spec to the one that has the name. -/
  | update (name kind : String) (spec : ControllerSpec Job)
  /-- Take the controller out that has a name. -/
  | remove (name : String)
  /-- Take all controllers out. -/
  | removeAll

/-- The spec that a call gives to the controller of a name. -/
def ManagerCall.specFor? (name : String) : ManagerCall → Option (ControllerSpec Job)
  | .update given _ spec => if given = name then some spec else none
  | .remove _ | .removeAll => none

/-- The world after a call of a manager. -/
def World.afterCall (w : World) (manager : Nat) : ManagerCall → World
  | .update name kind spec => (w.register manager name kind spec).2
  | .remove name => (w.unregister manager name).2
  | .removeAll => (w.unregisterAll manager).2

/-- Whether a controller has a name and has not ended. -/
def World.lingers (w : World) (name : String) (id : Nat) : Bool :=
  (w.loops.get? id).any fun l => l.name == name && !l.hasEnded

/-- What a manager was asked to do so far, and the controllers that it has started for that. -/
structure ManagerLog where
  calls : List ManagerCall
  started : List Nat
  /-- Those that had not ended when their name was registered again. -/
  lingering : List Nat

namespace ManagerLog

/-- Nothing was asked. -/
def empty : ManagerLog := ⟨[], [], []⟩

/-- The log after a call, made in a world. -/
def after (log : ManagerLog) (w : World) (manager : Nat) (c : ManagerCall) : ManagerLog :=
  let calls := log.calls ++ [c]
  match c with
  | .update name _ _ =>
    if (w.controllers manager).contains name then { log with calls }
    else
      { calls
        started := log.started ++ [w.loops.size]
        lingering := log.lingering ++ log.started.filter (w.lingers name) }
  | .remove _ | .removeAll => { log with calls }

/-- The spec that was given last to the controller of a name. -/
def given (log : ManagerLog) (name : String) : Option (ControllerSpec Job) :=
  (log.calls.filterMap (ManagerCall.specFor? name)).getLast?

variable {log : ManagerLog} {w : World} {manager : Nat}

theorem calls_after (c : ManagerCall) : (log.after w manager c).calls = log.calls ++ [c] := by
  unfold after
  cases c with
  | update name kind spec =>
      dsimp only
      split <;> rfl
  | remove name => rfl
  | removeAll => rfl

/-- The spec of a name is that of the call, if the call gives one to the name. -/
theorem given_after (c : ManagerCall) (name : String) :
    (log.after w manager c).given name = (c.specFor? name).or (log.given name) := by
  unfold given
  rw [calls_after, List.filterMap_append, List.getLast?_append]
  cases hspec : c.specFor? name <;> simp [hspec]

end ManagerLog

/-! ## What calls do -/

namespace Arena

variable {α : Type} {a : Arena α} {x : α} {id : Nat}

theorem lt_size_of_get? (h : a.get? id = some x) : id < a.size := (List.getElem?_eq_some_iff.1 h).1

theorem get?_add_self (a : Arena α) (x : α) : (a.add x).2.get? a.size = some x :=
  List.getElem?_concat_length

theorem get?_add_of_lt (h : id < a.size) (x : α) : (a.add x).2.get? id = a.get? id :=
  List.getElem?_append_left h

end Arena

namespace World

variable {w : World} {manager : Nat}

theorem get?_modifyLoop (w : World) (id : Nat) (f : Loop Job → Loop Job) (j : Nat) :
    (w.modifyLoop id f).loops.get? j = if j = id then (w.loops.get? j).map f else w.loops.get? j :=
  Arena.get?_modify _ _ _ _

/-- Controllers are given the stop signal one after the other. -/
theorem get?_signalStops (w : World) (ids : List Nat) (j : Nat) :
    (ids.foldl (fun w id => w.modifyLoop id Loop.signalStop) w).loops.get? j =
      if j ∈ ids then (w.loops.get? j).map Loop.signalStop else w.loops.get? j := by
  induction ids generalizing w with
  | nil => rfl
  | cons id rest ih =>
      rw [List.foldl_cons, ih, get?_modifyLoop]
      by_cases hid : j = id
      · -- A second signal adds nothing to the first.
        simp only [hid, List.mem_cons_self, if_true, Option.map_map]
        split <;> rfl
      · simp [hid]

/-- The stop signal changes nothing but controllers. -/
theorem signalStops_eq (w : World) (ids : List Nat) :
    ∃ loops, ids.foldl (fun w id => w.modifyLoop id Loop.signalStop) w = { w with loops } := by
  induction ids generalizing w with
  | nil => exact ⟨w.loops, rfl⟩
  | cons id rest ih =>
      obtain ⟨loops, hloops⟩ := ih (w.modifyLoop id Loop.signalStop)
      exact ⟨loops, hloops⟩

/-- What a manager that exists has after a change. -/
theorem get?_managers_of_modify {w' : World} {f : Manager → Manager}
    (hknown : (w.managers.get? manager).isSome = true)
    (hmanagers : w'.managers = w.managers.modify manager f) :
    w'.managers.get? manager = some (f (w.controllers manager)) := by
  obtain ⟨m, hm⟩ := Option.isSome_iff_exists.1 hknown
  simp only [hmanagers, Arena.get?_modify, if_true, hm, controllers, Option.map_some,
    Option.getD_some]

theorem controllers_eq {m : Manager} (h : w.managers.get? manager = some m) :
    w.controllers manager = m := by
  rw [controllers, h, Option.getD_some]

/-- A controller is registered under a name that is free. -/
theorem register_of_free {name : String} (hfree : (w.controllers manager).get? name = none)
    (kind : String) (spec : ControllerSpec Job) :
    (w.register manager name kind spec).2 = { w with
      loops := (w.loops.add (.new name kind spec)).2
      managers := w.managers.modify manager fun m => m.insert name w.loops.size } := by
  rw [register, hfree]
  rfl

/-- The controller that has a name is given another spec. -/
theorem register_of_taken {name : String} {id : Nat}
    (hid : (w.controllers manager).get? name = some id) (kind : String) (spec : ControllerSpec Job) :
    (w.register manager name kind spec).2 = w.modifyLoop id fun l => l.update spec := by
  rw [register, hid]

end World

/-! ## Worlds that come about -/

/-- The worlds that come about with a manager, from one in which it has no controllers. Calls may
come whenever they like. Between them its controllers take steps of their own, whatever becomes of
their passes and however long they take, and others do what they do, also with controllers and
managers of their own. -/
inductive Reached (manager : Nat) : ManagerLog → World → Prop where
  | start {w : World} (hmanager : w.managers.get? manager = some .empty) : Reached manager .empty w
  | call {log : ManagerLog} {w : World} (h : Reached manager log w) (c : ManagerCall) :
    Reached manager (log.after w manager c) (w.afterCall manager c)
  | step {log : ManagerLog} {w : World} (h : Reached manager log w) {id : Nat} {l l' : Loop Job}
    (hstarted : id ∈ log.started) (hget : w.loops.get? id = some l) {happening : Happening Job}
    (hown : happening.Own) (hhappens : l.happen? happening = some l') :
    Reached manager log (w.modifyLoop id fun _ => l')
  | others {log : ManagerLog} {w w' : World} (h : Reached manager log w)
    (hmanager : w'.managers.get? manager = w.managers.get? manager)
    (hloops : ∀ id ∈ log.started, w'.loops.get? id = w.loops.get? id) : Reached manager log w'

/-- What is true of the controllers of a manager. -/
structure Registry (manager : Nat) (log : ManagerLog) (w : World) : Prop where
  known : (w.managers.get? manager).isSome = true
  found : ∀ id ∈ log.started, ∃ l, w.loops.get? id = some l
  registered : ∀ name id, (w.controllers manager).get? name = some id →
    id ∈ log.started ∧ ∃ l spec, w.loops.get? id = some l ∧ l.name = name ∧
      log.given name = some spec ∧ l.Serves spec
  taken : ∀ id ∈ log.started, ∀ l, w.loops.get? id = some l →
    l.stopSignal = true ∨ (w.controllers manager).get? l.name = some id
  succession : ∀ older ∈ log.started, ∀ newer ∈ log.started, older < newer →
    ∀ l l', w.loops.get? older = some l → w.loops.get? newer = some l' → l.name = l'.name →
      l.stopSignal = true ∧ (l.phase = .ended ∨ older ∈ log.lingering)

/-- A move that starts no controller: what is registered was registered before and is still served,
and what is registered no longer has the stop signal. -/
structure Carries (manager : Nat) (log log' : ManagerLog) (w w' : World) : Prop where
  started : log'.started = log.started
  lingering : log'.lingering = log.lingering
  known : (w.managers.get? manager).isSome = true → (w'.managers.get? manager).isSome = true
  ages : ∀ id ∈ log.started, ∀ l, w.loops.get? id = some l →
    ∃ l', w'.loops.get? id = some l' ∧ l.Ages l'
  registered : ∀ name id, (w'.controllers manager).get? name = some id →
    (w.controllers manager).get? name = some id
  served : ∀ name id l l' spec, (w'.controllers manager).get? name = some id →
    w.loops.get? id = some l → w'.loops.get? id = some l' → l.name = name →
      log.given name = some spec → l.Serves spec →
        ∃ spec', log'.given name = some spec' ∧ l'.Serves spec'
  taken : ∀ name id l', (w.controllers manager).get? name = some id →
    (w'.controllers manager).get? name = none → w'.loops.get? id = some l' → l'.stopSignal = true

/-- A move that starts a controller, under a name that was free and with the next number. -/
structure Starts (manager : Nat) (name : String) (spec : ControllerSpec Job)
    (log log' : ManagerLog) (w w' : World) : Prop where
  free : (w.controllers manager).get? name = none
  started : log'.started = log.started ++ [w.loops.size]
  lingering : log'.lingering = log.lingering ++ log.started.filter (w.lingers name)
  given : ∀ other, log'.given other = if other = name then some spec else log.given other
  known : (w'.managers.get? manager).isSome = true
  controllers : w'.controllers manager = (w.controllers manager).insert name w.loops.size
  newest : ∃ kind, w'.loops.get? w.loops.size = some (.new name kind spec)
  older : ∀ id < w.loops.size, w'.loops.get? id = w.loops.get? id

theorem Starts.mem_started {manager : Nat} {name : String} {spec : ControllerSpec Job}
    {log log' : ManagerLog} {w w' : World} (h : Starts manager name spec log log' w w') {id : Nat} :
    id ∈ log'.started ↔ id ∈ log.started ∨ id = w.loops.size := by
  rw [h.started, List.mem_append, List.mem_singleton]

namespace Registry

variable {manager : Nat} {log log' : ManagerLog} {w w' : World}

/-- The name of a registered controller. -/
theorem name_of_registered (h : Registry manager log w) {name : String} {id : Nat} {l : Loop Job}
    (hid : (w.controllers manager).get? name = some id) (hget : w.loops.get? id = some l) :
    l.name = name := by
  obtain ⟨-, l', spec, hget', hname, -⟩ := h.registered name id hid
  obtain rfl := Option.some.inj (hget.symm.trans hget')
  exact hname

/-- **A move that starts no controller** keeps the registry. -/
theorem carries (h : Registry manager log w) (hmove : Carries manager log log' w w') :
    Registry manager log' w' := by
  -- A controller of the world after the move was there before.
  have hback : ∀ id ∈ log.started, ∀ l', w'.loops.get? id = some l' →
      ∃ l, w.loops.get? id = some l ∧ l.Ages l' := by
    intro id hid l' hget'
    obtain ⟨l, hget⟩ := h.found id hid
    obtain ⟨l'', hget'', hages⟩ := hmove.ages id hid l hget
    obtain rfl := Option.some.inj (hget'.symm.trans hget'')
    exact ⟨l, hget, hages⟩
  refine ⟨hmove.known h.known, fun id hid => ?_, fun name id hid => ?_, fun id hid l' hget' => ?_,
    fun older holder newer hnewer hlt l' k' hget' hgetk' hname => ?_⟩
  · rw [hmove.started] at hid
    obtain ⟨l, hget⟩ := h.found id hid
    obtain ⟨l', hget', -⟩ := hmove.ages id hid l hget
    exact ⟨l', hget'⟩
  · obtain ⟨hstarted, l, spec, hget, hname, hgiven, hserves⟩ :=
      h.registered name id (hmove.registered name id hid)
    obtain ⟨l', hget', hages⟩ := hmove.ages id hstarted l hget
    obtain ⟨spec', hgiven', hserves'⟩ :=
      hmove.served name id l l' spec hid hget hget' hname hgiven hserves
    rw [hmove.started]
    exact ⟨hstarted, l', spec', hget', hages.name.trans hname, hgiven', hserves'⟩
  · rw [hmove.started] at hid
    obtain ⟨l, hget, hages⟩ := hback id hid l' hget'
    rcases h.taken id hid l hget with hstop | hregistered
    · exact .inl (hages.stopped hstop)
    · rw [hages.name]
      cases hstill : (w'.controllers manager).get? l.name with
      | none => exact .inl (hmove.taken l.name id l' hregistered hstill hget')
      | some id' =>
          have hsame := hmove.registered l.name id' hstill
          exact .inr (hsame.symm.trans hregistered)
  · rw [hmove.started] at holder hnewer
    obtain ⟨l, hget, hages⟩ := hback older holder l' hget'
    obtain ⟨k, hgetk, hagesk⟩ := hback newer hnewer k' hgetk'
    rw [hages.name, hagesk.name] at hname
    obtain ⟨hstop, hend⟩ := h.succession older holder newer hnewer hlt l k hget hgetk hname
    rw [hmove.lingering]
    exact ⟨hages.stopped hstop, hend.imp hages.ended id⟩

/-- A name that is not registered is the name of controllers with the stop signal only. -/
theorem stopped_of_free (h : Registry manager log w) {name : String}
    (hfree : (w.controllers manager).get? name = none) {id : Nat} (hid : id ∈ log.started)
    {l : Loop Job} (hget : w.loops.get? id = some l) (hname : l.name = name) :
    l.stopSignal = true := by
  rcases h.taken id hid l hget with hstop | hregistered
  · exact hstop
  · rw [hname, hfree] at hregistered
    cases hregistered

/-- **Others** leave a manager and its controllers alone. -/
theorem others (h : Registry manager log w)
    (hmanager : w'.managers.get? manager = w.managers.get? manager)
    (hloops : ∀ id ∈ log.started, w'.loops.get? id = w.loops.get? id) :
    Registry manager log w' := by
  have hcontrollers : w'.controllers manager = w.controllers manager := by
    unfold World.controllers
    rw [hmanager]
  refine h.carries ⟨rfl, rfl, by rw [hmanager]; exact id, fun id hid l hget => ?_,
    fun name id hid => ?_, fun name id l l' spec hid hget hget' _ hgiven hserves => ?_,
    fun name id l' hid hnone => ?_⟩
  · exact ⟨l, (hloops id hid).trans hget, .refl l⟩
  · rwa [hcontrollers] at hid
  · rw [hcontrollers] at hid
    rw [hloops id (h.registered name id hid).1] at hget'
    obtain rfl := Option.some.inj (hget.symm.trans hget')
    exact ⟨spec, hgiven, hserves⟩
  · rw [hcontrollers, hid] at hnone
    cases hnone

/-- **A controller that takes a step of its own** keeps its name and its place. -/
theorem step (h : Registry manager log w) {id : Nat} {l l' : Loop Job}
    (hget : w.loops.get? id = some l) {happening : Happening Job} (hown : happening.Own)
    (hhappens : l.happen? happening = some l') :
    Registry manager log (w.modifyLoop id fun _ => l') := by
  refine h.carries ⟨rfl, rfl, fun hknown => hknown, fun other _ k hgetk => ?_,
    fun name other hother => hother, fun name other k k' spec hother hgetk hgetk' _ hgiven hserves => ?_,
    fun name other k' hother hnone => ?_⟩
  · rw [World.get?_modifyLoop]
    split
    · next heq =>
      subst heq
      obtain rfl := Option.some.inj (hget.symm.trans hgetk)
      exact ⟨l', by rw [hget]; rfl, Loop.ages_of_own hown hhappens⟩
    · exact ⟨k, hgetk, .refl k⟩
  · rw [World.get?_modifyLoop] at hgetk'
    split at hgetk'
    · next heq =>
      subst heq
      obtain rfl := Option.some.inj (hget.symm.trans hgetk)
      rw [hget] at hgetk'
      obtain rfl := Option.some.inj hgetk'
      exact ⟨spec, hgiven, (hserves.step hown hhappens).1⟩
    · obtain rfl := Option.some.inj (hgetk.symm.trans hgetk')
      exact ⟨spec, hgiven, hserves⟩
  · have hstill : (w.controllers manager).get? name = none := hnone
    rw [hother] at hstill
    cases hstill

/-- **Controllers are taken out** and given the stop signal, and the others stay registered. -/
theorem takeOut (h : Registry manager log w) (ids : List Nat)
    (hstarted : log'.started = log.started) (hlingering : log'.lingering = log.lingering)
    (hgiven : ∀ name, log'.given name = log.given name)
    (hknown : (w'.managers.get? manager).isSome = true)
    (hloops : ∀ id, w'.loops.get? id =
      if id ∈ ids then (w.loops.get? id).map Loop.signalStop else w.loops.get? id)
    (hstay : ∀ name id, (w'.controllers manager).get? name = some id →
      (w.controllers manager).get? name = some id ∧ id ∉ ids)
    (hgone : ∀ name id, (w.controllers manager).get? name = some id →
      (w'.controllers manager).get? name = none → id ∈ ids) : Registry manager log' w' := by
  refine h.carries ⟨hstarted, hlingering, fun _ => hknown, fun id _ l hget => ?_,
    fun name id hid => (hstay name id hid).1,
    fun name id l l' spec hid hget hget' _ hspec hserves => ?_, fun name id l' hid hnone hget' => ?_⟩
  · rw [hloops, hget]
    split
    · exact ⟨l.signalStop, rfl, Loop.ages_signalStop l⟩
    · exact ⟨l, rfl, .refl l⟩
  · rw [hloops, if_neg (hstay name id hid).2] at hget'
    obtain rfl := Option.some.inj (hget.symm.trans hget')
    exact ⟨spec, (hgiven name).trans hspec, hserves⟩
  · rw [hloops, if_pos (hgone name id hid hnone)] at hget'
    obtain ⟨l, -, rfl⟩ := Option.map_eq_some_iff.1 hget'
    rfl

/-- **The controller of a name is taken out.** -/
theorem unregister (h : Registry manager log w) (name : String) :
    Registry manager (log.after w manager (.remove name)) (w.unregister manager name).2 := by
  have hgiven : ∀ other, (log.after w manager (.remove name)).given other = log.given other := by
    intro other
    rw [ManagerLog.given_after]
    rfl
  cases hloop : (w.controllers manager).get? name with
  | none =>
      have hsame : (w.unregister manager name).2 = w := by rw [World.unregister, hloop]
      rw [hsame]
      refine h.takeOut [] rfl rfl hgiven h.known (fun _ => rfl)
        (fun _ _ hid => ⟨hid, List.not_mem_nil⟩) fun other id hid hnone => ?_
      rw [hid] at hnone
      cases hnone
  | some loop =>
      have hworld : (w.unregister manager name).2 = { w.modifyLoop loop Loop.signalStop with
          managers := w.managers.modify manager fun m => m.erase name } := by
        rw [World.unregister, hloop]
        rfl
      have hmanager : (w.unregister manager name).2.managers.get? manager =
          some ((w.controllers manager).erase name) :=
        World.get?_managers_of_modify h.known (congrArg World.managers hworld)
      have hcontrollers := World.controllers_eq hmanager
      refine h.takeOut [loop] rfl rfl hgiven (by rw [hmanager]; rfl) (fun id => ?_)
        (fun other id hid => ?_) fun other id hid hnone => ?_
      · simp only [hworld, List.mem_singleton]
        exact World.get?_modifyLoop w loop Loop.signalStop id
      · rw [hcontrollers] at hid
        by_cases hother : other = name
        · rw [hother, KeyMap.get?_erase_self] at hid
          cases hid
        · rw [KeyMap.get?_erase_of_ne _ hother] at hid
          refine ⟨hid, fun hmem => hother ?_⟩
          -- A controller has one name.
          obtain rfl := List.mem_singleton.1 hmem
          obtain ⟨-, l, -, hget, hname, -⟩ := h.registered other id hid
          exact hname.symm.trans (h.name_of_registered hloop hget)
      · rw [hcontrollers] at hnone
        by_cases hother : other = name
        · rw [hother, hloop] at hid
          exact List.mem_singleton.2 (Option.some.inj hid).symm
        · rw [KeyMap.get?_erase_of_ne _ hother, hid] at hnone
          cases hnone

/-- **All controllers are taken out.** -/
theorem unregisterAll (h : Registry manager log w) :
    Registry manager (log.after w manager .removeAll) (w.unregisterAll manager).2 := by
  have hgiven : ∀ name, (log.after w manager .removeAll).given name = log.given name := by
    intro name
    rw [ManagerLog.given_after]
    rfl
  have hmanager : (w.unregisterAll manager).2.managers.get? manager = some .empty := by
    refine World.get?_managers_of_modify (f := fun _ => .empty) h.known ?_
    obtain ⟨loops, hloops⟩ := World.signalStops_eq w (w.controllers manager).values
    rw [World.unregisterAll, hloops]
  have hempty := World.controllers_eq hmanager
  refine h.takeOut (w.controllers manager).values rfl rfl hgiven (by rw [hmanager]; rfl)
    (World.get?_signalStops w _) (fun name id hid => ?_) fun name id hid _ => ?_
  · rw [hempty, KeyMap.get?_empty] at hid
    cases hid
  · exact List.mem_map.2 ⟨(name, id), (KeyMap.mem_toList_iff _ _ _).2 hid, rfl⟩

/-- **A name that is registered again** gives its spec to the controller that has it. -/
theorem giveSpec (h : Registry manager log w) {name kind : String} {spec : ControllerSpec Job}
    {id : Nat} (hid : (w.controllers manager).get? name = some id) :
    Registry manager (log.after w manager (.update name kind spec))
      (w.modifyLoop id fun l => l.update spec) := by
  have hcontains : (w.controllers manager).contains name = true :=
    (KeyMap.contains_iff _ _).2 ⟨id, hid⟩
  have hlog : log.after w manager (.update name kind spec) =
      { log with calls := log.calls ++ [.update name kind spec] } := by
    rw [ManagerLog.after, if_pos hcontains]
  refine h.carries ⟨by rw [hlog], by rw [hlog], fun hknown => hknown, fun other _ l hget => ?_,
    fun other _ hother => hother,
    fun other owner l l' earlier howner hget hget' hname hgiven hserves => ?_,
    fun other owner l' howner hnone => ?_⟩
  · rw [World.get?_modifyLoop, hget]
    split
    · exact ⟨l.update spec, rfl, Loop.ages_update l spec⟩
    · exact ⟨l, rfl, .refl l⟩
  · have howner : (w.controllers manager).get? other = some owner := howner
    rw [World.get?_modifyLoop, hget] at hget'
    rw [ManagerLog.given_after]
    by_cases hother : name = other
    · subst hother
      obtain rfl := Option.some.inj (hid.symm.trans howner)
      rw [if_pos rfl] at hget'
      obtain rfl := Option.some.inj hget'
      exact ⟨spec, by simp [ManagerCall.specFor?], hserves.update spec⟩
    · -- The controller of another name is another one.
      have hne : owner ≠ id := fun heq =>
        hother ((h.name_of_registered hid (heq ▸ hget)).symm.trans hname)
      rw [if_neg hne] at hget'
      obtain rfl := Option.some.inj hget'
      exact ⟨earlier, by simpa [ManagerCall.specFor?, hother] using hgiven, hserves⟩
  · have hstill : (w.controllers manager).get? other = none := hnone
    rw [howner] at hstill
    cases hstill

section Starts

variable {name : String} {spec : ControllerSpec Job}

/-- Older controllers have smaller numbers. -/
theorem lt_size (h : Registry manager log w) {id : Nat} (hid : id ∈ log.started) :
    id < w.loops.size := by
  obtain ⟨l, hget⟩ := h.found id hid
  exact Arena.lt_size_of_get? hget

/-- A controller that starts is registered, and the others stay so. -/
theorem registered_of_starts (h : Registry manager log w)
    (hmove : Starts manager name spec log log' w w') {other : String} {id : Nat}
    (hid : (w'.controllers manager).get? other = some id) :
    id ∈ log'.started ∧ ∃ l given, w'.loops.get? id = some l ∧ l.name = other ∧
      log'.given other = some given ∧ l.Serves given := by
  rw [hmove.controllers] at hid
  by_cases hother : other = name
  · rw [hother, KeyMap.get?_insert_self] at hid
    obtain rfl := Option.some.inj hid
    obtain ⟨kind, hnew⟩ := hmove.newest
    exact ⟨hmove.mem_started.2 (.inr rfl), _, spec, hnew, hother.symm,
      by rw [hmove.given, if_pos hother], Loop.serves_new name kind spec⟩
  · rw [KeyMap.get?_insert_of_ne _ hother] at hid
    obtain ⟨hstarted, l, given, hget, hname, hgiven, hserves⟩ := h.registered other id hid
    exact ⟨hmove.mem_started.2 (.inl hstarted), l, given,
      (hmove.older id (h.lt_size hstarted)).trans hget, hname,
      by rw [hmove.given, if_neg hother, hgiven], hserves⟩

/-- The name was free, so a controller that is registered keeps its name. -/
theorem taken_of_starts (h : Registry manager log w)
    (hmove : Starts manager name spec log log' w w') {id : Nat} (hid : id ∈ log'.started)
    {l : Loop Job} (hget : w'.loops.get? id = some l) :
    l.stopSignal = true ∨ (w'.controllers manager).get? l.name = some id := by
  rw [hmove.controllers]
  rcases hmove.mem_started.1 hid with hid | rfl
  · rw [hmove.older id (h.lt_size hid)] at hget
    rcases h.taken id hid l hget with hstop | hregistered
    · exact .inl hstop
    · have hother : l.name ≠ name := fun heq => by
        rw [heq, hmove.free] at hregistered
        cases hregistered
      rw [KeyMap.get?_insert_of_ne _ hother]
      exact .inr hregistered
  · obtain ⟨kind, hnew⟩ := hmove.newest
    obtain rfl := Option.some.inj (hnew.symm.trans hget)
    exact .inr (KeyMap.get?_insert_self _ _ _)

/-- What had the name before has the stop signal, and has ended or is noted down as lingering. -/
theorem succeeded_of_starts (h : Registry manager log w)
    (hmove : Starts manager name spec log log' w w') {id : Nat} (hid : id ∈ log.started)
    {l : Loop Job} (hget : w.loops.get? id = some l) (hname : l.name = name) :
    l.stopSignal = true ∧ (l.phase = .ended ∨ id ∈ log'.lingering) := by
  refine ⟨h.stopped_of_free hmove.free hid hget hname, ?_⟩
  by_cases hended : l.phase = .ended
  · exact .inl hended
  · rw [hmove.lingering]
    refine .inr (List.mem_append_right _ (List.mem_filter.2 ⟨hid, ?_⟩))
    simp [World.lingers, hget, Loop.hasEnded, hended, hname]

/-- Of two controllers of one name the older one was there before. -/
theorem succession_of_starts (h : Registry manager log w)
    (hmove : Starts manager name spec log log' w w') {older newer : Nat}
    (holder : older ∈ log'.started) (hnewer : newer ∈ log'.started) (hlt : older < newer)
    {l l' : Loop Job} (hget : w'.loops.get? older = some l) (hget' : w'.loops.get? newer = some l')
    (hname : l.name = l'.name) :
    l.stopSignal = true ∧ (l.phase = .ended ∨ older ∈ log'.lingering) := by
  have hthere : older ∈ log.started := by
    rcases hmove.mem_started.1 holder with hthere | rfl
    · exact hthere
    · rcases hmove.mem_started.1 hnewer with hnewer | rfl
      · exact absurd hlt (Nat.lt_asymm (h.lt_size hnewer))
      · exact absurd hlt (Nat.lt_irrefl _)
  rw [hmove.older older (h.lt_size hthere)] at hget
  rcases hmove.mem_started.1 hnewer with hnewer | rfl
  · rw [hmove.older newer (h.lt_size hnewer)] at hget'
    obtain ⟨hstop, hend⟩ := h.succession older hthere newer hnewer hlt l l' hget hget' hname
    rw [hmove.lingering]
    exact ⟨hstop, hend.imp_right (List.mem_append_left _)⟩
  · obtain ⟨kind, hnew⟩ := hmove.newest
    obtain rfl := Option.some.inj (hnew.symm.trans hget')
    exact h.succeeded_of_starts hmove hthere hget hname

/-- **A move that starts a controller** keeps the registry. -/
theorem starts (h : Registry manager log w) (hmove : Starts manager name spec log log' w w') :
    Registry manager log' w' where
  known := hmove.known
  found := by
    intro id hid
    rcases hmove.mem_started.1 hid with hid | rfl
    · rw [hmove.older id (h.lt_size hid)]
      exact h.found id hid
    · obtain ⟨kind, hnew⟩ := hmove.newest
      exact ⟨_, hnew⟩
  registered := fun _ _ hid => h.registered_of_starts hmove hid
  taken := fun _ hid _ hget => h.taken_of_starts hmove hid hget
  succession := fun _ holder _ hnewer hlt _ _ hget hget' hname =>
    h.succession_of_starts hmove holder hnewer hlt hget hget' hname

/-- A name that is free is registered by starting a controller. -/
theorem starts_register (h : Registry manager log w) {kind : String}
    (hfree : (w.controllers manager).get? name = none) :
    Starts manager name spec log (log.after w manager (.update name kind spec)) w
      (w.register manager name kind spec).2 := by
  have hlog : log.after w manager (.update name kind spec) =
      { calls := log.calls ++ [.update name kind spec]
        started := log.started ++ [w.loops.size]
        lingering := log.lingering ++ log.started.filter (w.lingers name) } := by
    rw [ManagerLog.after, if_neg]
    simp [(KeyMap.contains_eq_false_iff _ _).2 hfree]
  have hworld := World.register_of_free hfree kind spec
  have hmanager := World.get?_managers_of_modify h.known (congrArg World.managers hworld)
  refine ⟨hfree, by rw [hlog], by rw [hlog], fun other => ?_, by rw [hmanager]; rfl,
    World.controllers_eq hmanager, ⟨kind, ?_⟩, fun id hlt => ?_⟩
  · rw [ManagerLog.given_after]
    by_cases hother : other = name
    · simp [ManagerCall.specFor?, hother]
    · simp [ManagerCall.specFor?, hother, Ne.symm hother]
  · rw [hworld]
    exact Arena.get?_add_self _ _
  · rw [hworld]
    exact Arena.get?_add_of_lt hlt _

end Starts

/-- **A name is registered.** -/
theorem register (h : Registry manager log w) (name kind : String) (spec : ControllerSpec Job) :
    Registry manager (log.after w manager (.update name kind spec))
      (w.register manager name kind spec).2 := by
  cases hid : (w.controllers manager).get? name with
  | some id =>
      have hworld : (w.register manager name kind spec).2 =
          w.modifyLoop id fun l => l.update spec := by rw [World.register, hid]
      rw [hworld]
      exact h.giveSpec hid
  | none => exact h.starts (h.starts_register hid)

/-- **Every call** keeps the registry. -/
theorem call (h : Registry manager log w) (c : ManagerCall) :
    Registry manager (log.after w manager c) (w.afterCall manager c) := by
  cases c with
  | update name kind spec => exact h.register name kind spec
  | remove name => exact h.unregister name
  | removeAll => exact h.unregisterAll

end Registry

/-- **The registry holds in every world that comes about.** -/
theorem Reached.registry {manager : Nat} {log : ManagerLog} {w : World} (h : Reached manager log w) :
    Registry manager log w := by
  induction h with
  | start hmanager =>
      have hempty := World.controllers_eq hmanager
      refine ⟨by rw [hmanager]; rfl, nofun, fun name id hid => ?_, nofun, nofun⟩
      rw [hempty, KeyMap.get?_empty] at hid
      cases hid
  | call _ c ih => exact ih.call c
  | step _ _ hget hown hhappens ih => exact ih.step hget hown hhappens
  | others _ hmanager hloops ih => exact ih.others hmanager hloops

/-! ## The forms that wait -/

section Waiting

variable {m m' : Machine} {manager : Nat} {name : String}

/-- **Who takes a controller out and waits** comes back when it has ended. -/
theorem ended_of_removeControllerAndWait
    (h : m.perform (removeControllerAndWait manager name) = (some (.ok ()), m')) :
    ∃ id, (m.world.controllers manager).get? name = some id ∧ m'.world.loopEnded id = true := by
  have hnow : (m.world.unregister manager name).2.now = m.world.now := by
    unfold World.unregister
    split <;> rfl
  obtain ⟨fuel, h⟩ := Machine.perform_update hnow h
  cases hid : (m.world.controllers manager).get? name with
  | none =>
      have htaken : (m.world.unregister manager name).1 = .error (.controllerNotFound name) := by
        rw [World.unregister, hid]
      rw [htaken] at h
      cases fuel <;> cases h
  | some id =>
      have htaken : (m.world.unregister manager name).1 = .ok id := by
        rw [World.unregister, hid]
      rw [htaken] at h
      obtain ⟨hready, -⟩ :=
        (Machine.ready_of_await (fun w => [id].all w.loopEnded) _ _).1 _ _ _ h
      exact ⟨id, rfl, by simpa using hready⟩

/-- **Who takes all controllers out and waits** comes back when all of them have ended. -/
theorem ended_of_removeAllAndWait
    (h : m.perform (removeAllAndWait manager) = (some (), m')) {name : String} {id : Nat}
    (hid : (m.world.controllers manager).get? name = some id) : m'.world.loopEnded id = true := by
  have hnow : (m.world.unregisterAll manager).2.now = m.world.now := by
    obtain ⟨loops, hloops⟩ := World.signalStops_eq m.world (m.world.controllers manager).values
    rw [World.unregisterAll, hloops]
  have hmem : id ∈ (m.world.unregisterAll manager).1 :=
    List.mem_map.2 ⟨(name, id), (KeyMap.mem_toList_iff _ _ _).2 hid, rfl⟩
  obtain ⟨fuel, h⟩ := Machine.perform_update hnow h
  obtain ⟨hready, -⟩ := (Machine.ready_of_await
    (fun w => (m.world.unregisterAll manager).1.all w.loopEnded) _ _).1 _ _ _ h
  exact List.all_eq_true.1 hready id hmem

end Waiting

/-! ## Machines -/

/-- A world that comes about with a manager. -/
def Managed (manager : Nat) (w : World) : Prop := ∃ log, Reached manager log w

section Machines

variable {manager : Nat} {w : World} {name kind : String} {spec : ControllerSpec Job}

/-- What a controller does is a step of its own, or nothing to the manager. -/
theorem kept_managed (manager : Nat) : Kept (Managed manager) := by
  refine ⟨fun hsame h => ?_, fun happening h hget hown hhappens => ?_⟩
  · obtain ⟨log, h⟩ := h
    exact ⟨log, h.others (by rw [hsame.managers]) fun _ _ => by rw [hsame.loops]⟩
  · next w id l l' =>
    obtain ⟨log, h⟩ := h
    by_cases hstarted : id ∈ log.started
    · exact ⟨log, h.step hstarted hget hown hhappens⟩
    · refine ⟨log, h.others rfl fun other hother => ?_⟩
      rw [World.get?_modifyLoop, if_neg fun heq : other = id => hstarted (heq ▸ hother)]

theorem managed_call (c : ManagerCall) (w : World) :
    Preserves (Managed manager) w (w.afterCall manager c) := by
  intro ⟨log, h⟩
  exact ⟨_, h.call c⟩

theorem managed_updateController :
    (updateController manager name kind spec).Steady (Preserves (Managed manager)) w :=
  steady_of_register (managed_call (.update name kind spec) w)

theorem managed_removeController :
    (removeController manager name).Steady (Preserves (Managed manager)) w :=
  (steady_of_unregister (managed_call (.remove name) w)).1

theorem managed_removeControllerAndWait :
    (removeControllerAndWait manager name).Steady (Preserves (Managed manager)) w :=
  (steady_of_unregister (managed_call (.remove name) w)).2

theorem managed_removeAll : (removeAll manager).Steady (Preserves (Managed manager)) w :=
  (steady_of_unregisterAll (managed_call .removeAll w)).1

theorem managed_removeAllAndWait :
    (removeAllAndWait manager).Steady (Preserves (Managed manager)) w :=
  (steady_of_unregisterAll (managed_call .removeAll w)).2

/-- **Whatever a machine does with its manager** is calls in some order, with steps of controllers
between them. -/
theorem every_manager_is_reached {α : Type} (backend : Backend) (placement : PlacementKind)
    (deadline : Span) {acts : List (Act World α)}
    (hacts : ∀ act ∈ acts, ∀ w, act.Steady (Preserves (Managed 0)) w) :
    ∃ log, Reached 0 log (acts.foldl (fun (m : Machine) act => (m.perform act).2)
      (.new (.new backend placement deadline))).world := by
  have hnew : (Machine.new (.new backend placement deadline)).Holds (.ofWorld (Managed 0)) :=
    .new ⟨.empty, .start rfl⟩
  exact (hnew.performAll (kept_managed 0).lawful fun act hmem w =>
    (hacts act hmem w).mono fun _ _ => Preserves.allows).world

end Machines

/-! ## The controllers of a name -/

/-- **One controller for each name.** Whatever a manager is asked to do, and whenever its controllers
take their steps, a registered name has one controller that serves it. That controller has not ended
and does not; when it takes a step and is not in a pass, it begins one with the spec that was given
last for the name, and a spec that it has not seen ends its wait at once. All others that were
started for the name have the stop signal, and a controller that has it begins no pass but its first.
So if two passes of one name are under way, the older controller had been taken out, and it had not
ended when its name was registered again. -/
theorem one_controller_for_each_name {manager : Nat} {log : ManagerLog} {w : World}
    (h : Reached manager log w) :
    (∀ name id, (w.controllers manager).get? name = some id →
      ∃ l spec, w.loops.get? id = some l ∧ l.name = name ∧ log.given name = some spec ∧
        (l.phase ≠ .stopping ∧ l.phase ≠ .ended) ∧
        (∀ (happening : Happening Job) l', happening.Own → l.happen? happening = some l' →
          l.phase ≠ .passing → l'.phase = .passing ∧ l'.spec = spec) ∧
        (l.pending.isSome = true → ∀ elapsed, l.wake elapsed = some l.beginPass) ∧
        ∀ other ∈ log.started, other ≠ id → ∀ k, w.loops.get? other = some k → k.name = name →
          k.stopSignal = true) ∧
    (∀ id ∈ log.started, ∀ l, w.loops.get? id = some l → l.stopSignal = true → l.phase ≠ .fresh →
      ∀ (happening : Happening Job) l', happening.Own → l.happen? happening = some l' →
        l'.phase ≠ .passing) ∧
    ∀ older ∈ log.started, ∀ newer ∈ log.started, older < newer →
      ∀ l l', w.loops.get? older = some l → w.loops.get? newer = some l' → l.name = l'.name →
        l.stopSignal = true ∧ (l.phase = .passing → l'.phase = .passing → older ∈ log.lingering) := by
  have hregistry := h.registry
  refine ⟨fun name id hid => ?_, fun id _ l _ hstop hfresh happening l' hown hhappens => ?_,
    fun older hfirst newer hsecond hlt l l' hget hget' hname => ?_⟩
  · obtain ⟨hstarted, l, spec, hget, hname, hgiven, hserves⟩ := hregistry.registered name id hid
    refine ⟨l, spec, hget, hname, hgiven, hserves.unending,
      fun happening l' hown hhappens => (hserves.step hown hhappens).2,
      fun hpending elapsed => hserves.wake_eq hpending elapsed,
      fun other hother hne k hgetk hnamek => ?_⟩
    rcases hregistry.taken other hother k hgetk with hstop | hregistered
    · exact hstop
    · rw [hnamek, hid] at hregistered
      exact absurd (Option.some.inj hregistered).symm hne
  · exact Loop.not_passing_of_stopped hstop hfresh hown hhappens
  · obtain ⟨hstop, hend⟩ :=
      hregistry.succession older hfirst newer hsecond hlt l l' hget hget' hname
    refine ⟨hstop, fun hpassing _ => hend.resolve_left fun hended => ?_⟩
    rw [hpassing] at hended
    cases hended

/-- A controller is taken out in its first pass, and its name is registered again at once. -/
theorem newer_controller_serves_the_name :
    let spec : ControllerSpec Job := .once .bare
    let update : ManagerCall := .update "a" "test" spec
    let started := (Loop.new "a" "test" spec).start
    let w₀ := World.new (.memory (.new defaultGrace)) .roundRobin (.ofSeconds 1)
    let w₁ := (w₀.afterCall 0 update).modifyLoop 0 fun _ => started
    let w₂ := w₁.afterCall 0 (.remove "a")
    let w := (w₂.afterCall 0 update).modifyLoop 1 fun _ => started
    let log := ((ManagerLog.empty.after w₀ 0 update).after w₁ 0 (.remove "a")).after w₂ 0 update
    Reached 0 log w ∧ (w.controllers 0).get? "a" = some 1 ∧
      (∃ l, w.loops.get? 1 = some l ∧ l.phase ≠ .stopping ∧ l.phase ≠ .ended) ∧
      (∃ k, w.loops.get? 0 = some k ∧ k.stopSignal = true ∧
        ∀ (happening : Happening Job) k', happening.Own → k.happen? happening = some k' →
          k'.phase ≠ .passing) ∧
      0 ∈ log.lingering := by
  intro spec update started w₀ w₁ w₂ w log
  have hown : (Happening.start : Happening Job).Own := trivial
  have hstart : (Loop.new "a" "test" spec).happen? .start = some started := rfl
  have hfirst : Reached 0 (ManagerLog.empty.after w₀ 0 update) w₁ :=
    ((Reached.start rfl).call update).step (List.mem_singleton.2 rfl) rfl hown hstart
  have hmem : 1 ∈ log.started := by decide +kernel
  have h : Reached 0 log w :=
    ((hfirst.call (.remove "a")).call update).step hmem rfl hown hstart
  have hid : (w.controllers 0).get? "a" = some 1 := by decide +kernel
  have hget : w.loops.get? 0 = some started.signalStop := rfl
  have hget' : w.loops.get? 1 = some started := rfl
  have hmem' : 0 ∈ log.started := by decide +kernel
  obtain ⟨hserved, hstopped, hnewer⟩ := one_controller_for_each_name h
  obtain ⟨l, -, hl, -, -, hunending, -⟩ := hserved "a" 1 hid
  obtain ⟨hstop, hlingers⟩ := hnewer 0 hmem' 1 hmem Nat.zero_lt_one _ _ hget hget' rfl
  exact ⟨h, hid, ⟨l, hl, hunending⟩,
    ⟨_, hget, hstop, hstopped 0 hmem' _ hget hstop nofun⟩, hlingers rfl rfl⟩

/-- Two passes of one name are under way: the second controller was registered a second into the first
one's pass of ten seconds, right after the first was taken out. -/
theorem passes_of_one_name_overlap :
    let spec (label : String) : ControllerSpec Job :=
      ⟨.scripted label [⟨10000, false, false, none⟩] none, .ofSeconds 60, .ofSeconds 1, false, false⟩
    let act : Act World Unit := do
      let _ ← updateController 0 "a" "test" (spec "x")
      .pause 1000
      let _ ← removeController 0 "a"
      let _ ← updateController 0 "a" "test" (spec "y")
      .pause 1000
    let m := Machine.new (.new (.memory (.new defaultGrace)) .roundRobin (.ofSeconds 1))
    Managed 0 (m.perform act).2.world ∧
      (m.perform act).2.world.loops.items.map (fun l => (l.name, l.phase)) =
        [("a", .passing), ("a", .passing)] := by
  intro spec act m
  have hact : ∀ w, act.Steady (Preserves (Managed 0)) w := fun w => by
    refine managed_updateController.bind fun _ w => (Act.steady_pause _).bind fun _ w => ?_
    refine managed_removeController.bind fun _ w => ?_
    exact managed_updateController.bind fun _ w => Act.steady_pause _
  have hnew : m.Holds (.ofWorld (Managed 0)) := .new ⟨.empty, .start rfl⟩
  exact ⟨(hnew.perform (kept_managed 0).lawful ((hact _).mono fun _ _ => Preserves.allows)).world,
    by decide +kernel⟩

end Simulation

end FleetControl
