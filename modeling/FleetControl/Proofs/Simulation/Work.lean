import FleetControl.Proofs.Controller.Lifecycle
import FleetControl.Proofs.Simulation.Steady
import FleetControl.Simulation.Controllers

/-!
# The work of controllers

A machine polls its controllers one by one and runs the acts of their passes, and lets others act on the
world in between. The jobs of controllers leave all controllers alone, and who has them, so when the work
of a controller ends the controller is still in the pass, or in the stop function, that the work was begun
for. What is said of controllers and of who has them therefore stays true while a machine runs, if
it stays true when a controller takes a step of its own and if the acts of others keep it true. More
stays true where the work on jobs is known to keep it.

* `steady_runJob`, `steady_stopJob` — jobs leave controllers alone;
* `Machine.poll_cases`, `Machine.endWork_cases` — what a machine does with a controller, told apart
  once;
* `Machine.Lasting` — what stays true of a machine on its own, and while it runs an act;
* `Conduct` — what is said of a machine whose controllers work, and when it stays true; `Kept` for what
  is said of controllers only;
* `Machine.Holds.perform` — running an act keeps it true.
-/

namespace FleetControl

/-! ## Controllers at work -/

namespace Loop

variable {J : Type} {l l' : Loop J}

/-- The work of a loop is under way. -/
def Busy (l : Loop J) : Prop := l.phase = .passing ∨ l.phase = .stopping

/-- A loop that goes on after a wait works. -/
theorem busy_of_wake {elapsed : Bool} (h : l.wake elapsed = some l') : l'.Busy := by
  rcases wake_cases h with ⟨rfl, -⟩ | ⟨rfl, -⟩
  · exact .inr rfl
  · exact .inl rfl

end Loop

namespace Simulation

/-! ## What stays true while controllers work -/

/-- Controllers are the same, and who has them. -/
structure SameControllers (w w' : World) : Prop where
  loops : w'.loops = w.loops
  managers : w'.managers = w.managers

namespace SameControllers

variable {w w' w'' : World}

theorem refl (w : World) : SameControllers w w := ⟨rfl, rfl⟩

theorem trans (h : SameControllers w w') (h' : SameControllers w' w'') : SameControllers w w'' :=
  ⟨h'.loops.trans h.loops, h'.managers.trans h.managers⟩

end SameControllers

theorem Served.sameControllers {w w' : World} (h : Served w w') : SameControllers w w' := by
  obtain ⟨-, hrest⟩ := h
  rw [hrest]
  exact ⟨rfl, rfl⟩

/-- An act may do this: what was true stays true. -/
def Preserves (P : World → Prop) (w w' : World) : Prop := P w → P w'

/-- This is about controllers and who has them, and stays true when a controller takes a step of its
own. -/
structure Kept (P : World → Prop) : Prop where
  same : ∀ {w w'}, SameControllers w w' → P w → P w'
  step : ∀ {w id l l'} (happening : Happening Job), P w → w.loops.get? id = some l →
    happening.Own → l.happen? happening = some l' → P (w.modifyLoop id fun _ => l')

variable {w : World}

/-- Changing a controller that is known. -/
theorem World.modifyLoop_eq {id : Nat} {l : Loop Job} (hget : w.loops.get? id = some l)
    (f : Loop Job → Loop Job) : w.modifyLoop id f = w.modifyLoop id fun _ => f l := by
  have hitems : w.loops.items.modify id f = w.loops.items.modify id fun _ => f l := by
    apply List.ext_getElem?
    intro j
    rw [List.getElem?_modify, List.getElem?_modify]
    split
    · next hid =>
      subst hid
      have hitem : w.loops.items[id]? = some l := hget
      rw [hitem]
      rfl
    · rfl
  simp only [World.modifyLoop, Arena.modify, hitems]

/-! ## Jobs -/

section Observers

variable {R : World → World → Prop}

/-- **A request of an observer** is served like those of the control plane, changes what the cache
remembers, or is a callback, which is noted until it comes back. -/
theorem steady_answerWatch_of (loop cache : Nat) (hserved : ∀ w w', Served w w' → R w w')
    (hentries : ∀ (w : World) (f : Cache → Cache), (∀ c, ∃ entries, f c = { c with entries }) →
      R w (w.modifyCache cache f))
    (hback : ∀ w : World, R w (w.endCallback loop)) (r : WatchRequest)
    (hcalled : ∀ handler event, r = .notify handler event → R w (w.beginCallback loop handler)) :
    (answerWatch loop cache r).Steady R w := by
  cases r with
  | cancelled => trivial
  | scan scope => exact (steady_storeOp _).mono hserved
  | present key => exact ((steady_storeOp _).mono hserved).bind fun _ _ => trivial
  | cached key => trivial
  | record key version => exact Act.steady_modify (hentries w _ fun c => ⟨_, rfl⟩)
  | forget key => exact Act.steady_modify (hentries w _ fun c => ⟨_, rfl⟩)
  | cachedKeys => trivial
  | handlerFor key => trivial
  | notify handler event =>
      refine (Act.steady_modify (hcalled handler event rfl)).bind fun _ w => ?_
      refine ((steady_callback handler event).mono hserved).bind fun _ w => ?_
      exact (Act.steady_modify (hback w)).bind fun _ _ => trivial

/-- To play an entry of a script changes nothing. -/
theorem steady_playEntry (loop : Nat) (e : ScriptEntry) : (playEntry loop e).Steady R w := by
  unfold playEntry
  refine (Act.steady_pause _).bind fun _ w => ?_
  have hcrash : ∀ w, (if e.panics then .crash else pure () : Act World Unit).Steady R w := by
    intro w
    split <;> trivial
  dsimp only
  by_cases hwaits : e.untilCancelled
  · rw [if_pos hwaits]
    exact Act.Steady.bind (fun _ => trivial) fun _ w => hcrash w
  · rw [if_neg hwaits]
    exact hcrash w

end Observers

/-- **A request of an observer** leaves controllers alone. -/
theorem steady_answerWatch (loop cache : Nat) (r : WatchRequest) (w : World) :
    (answerWatch loop cache r).Steady SameControllers w :=
  steady_answerWatch_of loop cache (fun _ _ => Served.sameControllers) (fun _ _ _ => ⟨rfl, rfl⟩)
    (fun _ => ⟨rfl, rfl⟩) r fun _ _ _ => ⟨rfl, rfl⟩

/-- **A pass of a job** leaves controllers alone. -/
theorem steady_runJob (loop : Nat) (job : Job) : (runJob loop job).Steady SameControllers w := by
  cases job with
  | informer scope handler cache => exact .ofProgram (steady_answerWatch loop cache) _ w
  | sweep cache => exact .ofProgram (steady_answerWatch loop cache) _ w
  | scripted label script stop =>
      refine (Act.steady_update ⟨rfl, rfl⟩).bind fun runs w => ?_
      refine (steady_playEntry _ _).bind fun _ w => ?_
      exact (Act.steady_modify ⟨rfl, rfl⟩).bind fun _ _ => trivial
  | bare => trivial

/-- **The stop function of a job** leaves controllers alone. -/
theorem steady_stopJob (loop : Nat) (job : Job) : (stopJob loop job).Steady SameControllers w := by
  unfold stopJob
  split
  · refine (Act.steady_modify ⟨rfl, rfl⟩).bind fun _ w => ?_
    exact (steady_playEntry _ _).bind fun _ _ => trivial
  · trivial

/-! ## What a machine does with a controller -/

section Steps

variable {m m' : Machine} {loop : Nat} {l : Loop Job}

/-- A task that a controller is busy with. -/
theorem Machine.mem_tasks {task : Task} (h : m.task? loop = some task) : (loop, task) ∈ m.tasks := by
  obtain ⟨⟨id, found⟩, hfind, rfl⟩ := Option.map_eq_some_iff.1 h
  obtain rfl : id = loop := by simpa using List.find?_some hfind
  exact List.mem_of_find?_eq_some hfind

/-- **When the work of a controller ends**, the controller takes a step and works no more. -/
theorem Machine.endWork_cases (hget : m.world.loops.get? loop = some l) (hbusy : l.Busy)
    (outcome : Except Failure Unit) :
    ∃ happening l' task, happening.Own ∧ l.happen? happening = some l' ∧
      (∀ b, task ≠ some (.work b)) ∧ m.endWork loop outcome =
        ({ m with world := m.world.modifyLoop loop fun _ => l' } : Machine).setTask loop task := by
  unfold Machine.endWork
  rw [hget]
  dsimp only
  split
  · next hstopping =>
    refine ⟨.endStop outcome, l.endStop, none, trivial, if_pos hstopping, nofun, ?_⟩
    rw [World.modifyLoop_eq hget]
  · next hnot =>
    refine ⟨.endPass m.world.instant outcome, _, _, trivial, if_pos (hbusy.resolve_right hnot), ?_,
      rfl⟩
    exact nofun

/-- **When a controller goes on**, it takes a step and begins to work, or it works on. -/
theorem Machine.poll_cases (h : m.poll loop = some m') :
    ∃ l, m.world.loops.get? loop = some l ∧
      ((¬ l.Busy ∧ ∃ happening l', happening.Own ∧ l.happen? happening = some l' ∧ l'.Busy ∧
          m' = m.begin loop l') ∨
        (l.Busy ∧ ∃ b act, (loop, Task.work b) ∈ m.tasks ∧
          b.resume? m.world.now m.world = some act ∧ m' = m.work loop act)) := by
  unfold Machine.poll at h
  obtain ⟨l, hget, h⟩ := Option.bind_eq_some_iff.1 h
  refine ⟨l, hget, ?_⟩
  split at h
  · next hfresh =>
    cases h
    exact .inl ⟨by simp [Loop.Busy, hfresh], .start, l.start, trivial, if_pos hfresh, .inl rfl, rfl⟩
  · cases h
  · next span hwaiting =>
    obtain ⟨elapsed, h⟩ : ∃ elapsed, (l.wake elapsed).map (m.begin loop) = some m' := ⟨_, h⟩
    obtain ⟨l', hwake, rfl⟩ := Option.map_eq_some_iff.1 h
    refine .inl ⟨by simp [Loop.Busy, hwaiting], .wake elapsed, l', trivial, ?_,
      Loop.busy_of_wake hwake, rfl⟩
    simp only [Loop.happen?, hwaiting]
    exact hwake
  all_goals
    next hphase =>
    split at h
    · next b htask =>
      obtain ⟨act, hresume, rfl⟩ := Option.map_eq_some_iff.1 h
      exact .inr ⟨by simp [Loop.Busy, hphase], b, act, Machine.mem_tasks htask, hresume, rfl⟩
    · cases h

end Steps

/-! ## Machines and what stays true of them -/

/-- This stays true while a machine lets its controllers go on and time goes by. -/
structure Machine.Lasting (I : Machine → Prop) : Prop where
  poll : ∀ {m m' : Machine} {loop : Nat}, I m → m.poll loop = some m' → I m'
  goOn : ∀ {m : Machine} (time : Nat), I m → I (m.goOn time)

namespace Machine.Lasting

variable {I : Machine → Prop} {m : Machine}

/-- Controllers go on one after the other. -/
theorem pollEach (hI : Lasting I) (h : I m) (loops : List Nat) : I (m.pollEach loops).2 := by
  induction loops generalizing m with
  | nil => exact h
  | cons loop rest ih =>
      unfold Machine.pollEach
      split
      · next m' hpoll => exact ih (hI.poll h hpoll)
      · exact ih h

/-- **Whatever can go on now does so.** -/
theorem settle (hI : Lasting I) (h : I m) (fuel : Nat) : I (Machine.settle fuel m) := by
  induction fuel generalizing m with
  | zero => exact h
  | succ fuel ih =>
      have heach := hI.pollEach h (List.range m.world.loops.size)
      unfold Machine.settle
      split
      · next hpolled => exact ih (by rwa [hpolled] at heach)
      · next hpolled => rwa [hpolled] at heach

/-- An act runs from where it stands or waits, in some number of steps that make no difference. -/
theorem runFrom_and_waitFor {α : Type} (hI : Lasting I) {G : World → World → Prop}
    (hrefl : ∀ w, G w w) (htrans : ∀ w w' w'', G w w' → G w' w'' → G w w'')
    (hstep : ∀ (m : Machine) (world : World), I m → G m.world world → I { m with world })
    (fuel : Nat) :
    (∀ (m : Machine) (act : Act World α), I m → act.Steady G m.world →
      I (Machine.runFrom fuel act m).2) ∧
    ∀ (m : Machine) (b : Act.Blocked World α), I m → b.Steady G →
      I (Machine.runFrom.waitFor fuel b m).2 := by
  induction fuel with
  | zero =>
      refine ⟨fun m act h _ => ?_, fun m b h _ => ?_⟩
      · exact h
      · exact h
  | succ fuel ih =>
      obtain ⟨hrun, hwait⟩ := ih
      refine ⟨fun m act h hact => ?_, fun m b h hb => ?_⟩
      · obtain ⟨hgoes, hleft⟩ := hact.run hrefl htrans m.world.now
        unfold Machine.runFrom
        generalize act.run m.world.now m.world = r at hgoes hleft
        obtain ⟨progress, world⟩ := r
        have hworld : I { m with world } := hstep m world h hgoes
        cases progress with
        | ended a => exact hworld
        | crashed => exact hworld
        | blocked b => exact hwait _ b hworld (hleft b rfl)
      · unfold Machine.runFrom.waitFor
        split
        · next act hresume => exact hrun m act h (hb.resume hresume)
        · have hsettled := hI.settle h Machine.patience
          dsimp only
          split
          · next act hresume => exact hrun _ act hsettled (hb.resume hresume)
          · split
            · next time _ => exact hwait _ b (hI.goOn time hsettled) hb
            · exact hsettled

end Machine.Lasting

/-! ## Machines in which something holds -/

/-- What is said of a machine: what holds of its world, what holds of the world while a controller is at
work on a job, and what a part of that work may do to the world. -/
structure Conduct where
  holds : World → Prop
  works : Nat → Job → World → Prop
  does : Nat → Job → World → World → Prop

namespace Conduct

/-- What is said stays true: jobs do what their work may do, and that leaves controllers alone and what
holds as it is, as do the steps of controllers and the clock. -/
structure Lawful (C : Conduct) : Prop where
  refl : ∀ {loop job} w, C.does loop job w w
  trans : ∀ {loop job w w' w''}, C.does loop job w w' → C.does loop job w' w'' →
    C.does loop job w w''
  pass : ∀ loop job w, (runJob loop job).Steady (C.does loop job) w
  stop : ∀ loop job w, (stopJob loop job).Steady (C.does loop job) w
  /-- A pass that crashed waits for no callback. -/
  back : ∀ {loop job} w, C.does loop job w (w.endCallback loop)
  same : ∀ {loop job w w'}, C.does loop job w w' → SameControllers w w'
  goes : ∀ {loop job w w'}, C.works loop job w → C.does loop job w w' → C.holds w → C.holds w'
  on : ∀ {loop job w w'}, C.works loop job w → SameControllers w w' → C.works loop job w'
  step : ∀ {w : World} {loop l l'} (happening : Happening Job), C.holds w → w.loops.get? loop = some l →
    happening.Own → l.happen? happening = some l' → C.holds (w.modifyLoop loop fun _ => l')
  begun : ∀ {w : World} {loop} {l l' : Loop Job}, w.loops.get? loop = some l → l'.Busy →
    C.works loop l'.spec.job (w.modifyLoop loop fun _ => l')
  /-- A controller at work does not notice what another does. -/
  others : ∀ {w : World} {loop other job} {l : Loop Job} l', C.works other job w →
    w.loops.get? loop = some l → (l.Busy → other ≠ loop) →
    C.works other job (w.modifyLoop loop fun _ => l')
  later : ∀ {w : World} now, C.holds w → C.holds { w with now }

/-- An act of others may do this: what holds holds, and controllers at work are at work. -/
def Allows (C : Conduct) (w w' : World) : Prop :=
  C.holds w → C.holds w' ∧ ∀ loop job, C.works loop job w → C.works loop job w'

/-- Of the world only this is said, which is about controllers and who has them. -/
def ofWorld (P : World → Prop) : Conduct := ⟨P, fun _ _ _ => True, fun _ _ => SameControllers⟩

end Conduct

theorem Kept.lawful {P : World → Prop} (hP : Kept P) : (Conduct.ofWorld P).Lawful where
  refl := .refl
  trans := .trans
  pass loop job _ := steady_runJob loop job
  stop loop job _ := steady_stopJob loop job
  back _ := ⟨rfl, rfl⟩
  same h := h
  goes _ h := hP.same h
  on _ _ := trivial
  step := hP.step
  begun _ _ := trivial
  others _ _ _ _ := trivial
  later _ := hP.same ⟨rfl, rfl⟩

theorem Preserves.allows {P : World → Prop} {w w' : World} (h : Preserves P w w') :
    (Conduct.ofWorld P).Allows w w' := fun hw => ⟨h hw, fun _ _ => id⟩

/-- What is said of machines is true of this one. -/
structure Machine.Holds (C : Conduct) (m : Machine) : Prop where
  world : C.holds m.world
  tasks : ∀ loop b, (loop, Task.work b) ∈ m.tasks →
    ∃ job, C.works loop job m.world ∧ b.Steady (C.does loop job)

namespace Machine.Holds

variable {C : Conduct} {m m' : Machine} {world : World} {loop : Nat} {job : Job}

theorem new (h : C.holds w) : (Machine.new w).Holds C := ⟨h, fun _ _ hmem => by cases hmem⟩

/-- The world changes, and controllers at work are still at work. -/
theorem setWorld (h : m.Holds C) (hworld : C.holds world)
    (hworks : ∀ loop b job, (loop, Task.work b) ∈ m.tasks → C.works loop job m.world →
      C.works loop job world) : ({ m with world } : Machine).Holds C := by
  refine ⟨hworld, fun loop b hmem => ?_⟩
  obtain ⟨job, hat, hb⟩ := h.tasks loop b hmem
  exact ⟨job, hworks loop b job hmem hat, hb⟩

/-- The world changes, and a controller is busy with something else. -/
theorem setTask (h : m.Holds C) (hworld : C.holds world)
    (hworks : ∀ other job, other ≠ loop → C.works other job m.world → C.works other job world)
    {task : Option Task}
    (htask : ∀ b, task = some (.work b) → ∃ job, C.works loop job world ∧ b.Steady (C.does loop job)) :
    (({ m with world } : Machine).setTask loop task).Holds C := by
  refine ⟨hworld, fun other b hmem => ?_⟩
  have hothers : (other, Task.work b) ∈ m.tasks.filter (fun t => t.1 != loop) →
      ∃ job, C.works other job world ∧ b.Steady (C.does other job) := by
    intro hmem
    obtain ⟨hbefore, hne⟩ := List.mem_filter.1 hmem
    obtain ⟨job, hat, hb⟩ := h.tasks other b hbefore
    exact ⟨job, hworks other job (by simpa using hne) hat, hb⟩
  unfold Machine.setTask at hmem
  cases task with
  | none => exact hothers hmem
  | some t =>
      rcases List.mem_cons.1 hmem with heq | hmem
      · obtain ⟨rfl, rfl⟩ := Prod.mk.inj heq
        exact htask b rfl
      · exact hothers hmem

/-- **The work of a controller ends**: its pass does, or its stop function. -/
theorem endWork (hC : C.Lawful) (h : m.Holds C) {l : Loop Job}
    (hget : m.world.loops.get? loop = some l) (hbusy : l.Busy) (outcome : Except Failure Unit) :
    (m.endWork loop outcome).Holds C := by
  obtain ⟨happening, l', task, hown, hhappens, hidle, hended⟩ :=
    Machine.endWork_cases hget hbusy outcome
  rw [hended]
  exact h.setTask (hC.step happening h.world hget hown hhappens)
    (fun _ _ hne hat => hC.others l' hat hget fun _ => hne) fun b hb => absurd hb (hidle b)

/-- **A controller works** until its work ends or blocks. -/
theorem work (hC : C.Lawful) (h : m.Holds C) {l : Loop Job}
    (hget : m.world.loops.get? loop = some l) (hbusy : l.Busy) (hat : C.works loop job m.world)
    {act : Act World (Except Failure Unit)} (hact : act.Steady (C.does loop job) m.world) :
    (m.work loop act).Holds C := by
  obtain ⟨hdoes, hleft⟩ := Act.Steady.run hC.refl (fun _ _ _ => hC.trans) hact m.world.now
  unfold Machine.work
  generalize act.run m.world.now m.world = r at hdoes hleft
  obtain ⟨progress, world⟩ := r
  have hafter : ∀ world, C.does loop job m.world world →
      ({ m with world } : Machine).Holds C ∧ world.loops.get? loop = some l := by
    intro world hdoes
    refine ⟨h.setWorld (hC.goes hat hdoes h.world) fun _ _ _ _ hother =>
      hC.on hother (hC.same hdoes), ?_⟩
    rw [(hC.same hdoes).loops, hget]
  obtain ⟨hworld, hget'⟩ := hafter world hdoes
  cases progress with
  | ended outcome => exact hworld.endWork hC hget' hbusy outcome
  | crashed =>
      obtain ⟨hback, hget'⟩ := hafter _ (hC.trans hdoes (hC.back world))
      exact hback.endWork hC hget' hbusy _
  | blocked b =>
      refine hworld.setTask hworld.world (fun _ _ _ => id) fun b' hb' => ?_
      cases hb'
      exact ⟨job, hC.on hat (hC.same hdoes), hleft b rfl⟩

/-- **A controller takes a step** and begins what the step is for. -/
theorem begin (hC : C.Lawful) (h : m.Holds C) {l l' : Loop Job} {happening : Happening Job}
    (hget : m.world.loops.get? loop = some l) (hidle : ¬ l.Busy) (hown : happening.Own)
    (hhappens : l.happen? happening = some l') (hbusy : l'.Busy) : (m.begin loop l').Holds C := by
  have hafter : ({ m with world := m.world.modifyLoop loop fun _ => l' } : Machine).Holds C :=
    h.setWorld (hC.step happening h.world hget hown hhappens) fun _ _ _ _ hat =>
      hC.others l' hat hget fun hbusy => absurd hbusy hidle
  have hget' : (m.world.modifyLoop loop fun _ => l').loops.get? loop = some l' := by
    simp only [World.modifyLoop, Arena.get?_modify, if_true, hget, Option.map_some]
  unfold Machine.begin
  refine hafter.work hC hget' hbusy (hC.begun hget hbusy) ?_
  split
  · exact hC.stop loop _ _
  · exact hC.pass loop _ _

/-- **A controller goes on**, if it can. -/
theorem poll (hC : C.Lawful) (h : m.Holds C) (hpoll : m.poll loop = some m') : m'.Holds C := by
  obtain ⟨l, hget, hcases⟩ := Machine.poll_cases hpoll
  rcases hcases with ⟨hidle, happening, l', hown, hhappens, hbusy, rfl⟩ |
    ⟨hbusy, b, act, htask, hresume, rfl⟩
  · exact h.begin hC hget hidle hown hhappens hbusy
  · obtain ⟨job, hat, hb⟩ := h.tasks loop b htask
    exact h.work hC hget hbusy hat (hb.resume hresume)

/-- **A machine on its own** keeps it true. -/
theorem lasting (hC : C.Lawful) : Machine.Lasting (Machine.Holds C) where
  poll h hpoll := h.poll hC hpoll
  goOn _ h := h.setWorld (hC.later _ h.world) fun _ _ _ _ hat => hC.on hat ⟨rfl, rfl⟩

/-- What can go on now does so. -/
theorem rest (hC : C.Lawful) (h : m.Holds C) : m.rest.Holds C := (lasting hC).settle h _

section Perform

variable {α : Type}

/-- An act runs from where it stands or waits, while controllers go on whenever it waits. -/
theorem runFrom_and_waitFor (hC : C.Lawful) (fuel : Nat) :
    (∀ (m : Machine) (act : Act World α), m.Holds C → act.Steady C.Allows m.world →
      (Machine.runFrom fuel act m).2.Holds C) ∧
    ∀ (m : Machine) (b : Act.Blocked World α), m.Holds C → b.Steady C.Allows →
      (Machine.runFrom.waitFor fuel b m).2.Holds C := by
  refine (lasting hC).runFrom_and_waitFor (fun _ h => ⟨h, fun _ _ => id⟩) ?_ ?_ fuel
  · intro w w' w'' h h' hw
    obtain ⟨hw', hat⟩ := h hw
    obtain ⟨hw'', hat'⟩ := h' hw'
    exact ⟨hw'', fun loop job hworks => hat' loop job (hat loop job hworks)⟩
  · intro m world h hallows
    obtain ⟨hworld, hworks⟩ := hallows h.world
    exact h.setWorld hworld fun loop _ job _ => hworks loop job

/-- **An act runs to its end**, while controllers go on whenever it waits. -/
theorem perform (hC : C.Lawful) (h : m.Holds C) {act : Act World α}
    (hact : act.Steady C.Allows m.world) : (m.perform act).2.Holds C :=
  (runFrom_and_waitFor hC Machine.patience).1 m act h hact

/-- Acts run one after the other. -/
theorem performAll (hC : C.Lawful) {acts : List (Act World α)} (h : m.Holds C)
    (hacts : ∀ act ∈ acts, ∀ w, act.Steady C.Allows w) :
    (acts.foldl (fun (m : Machine) act => (m.perform act).2) m).Holds C := by
  induction acts generalizing m with
  | nil => exact h
  | cons act rest ih =>
      exact ih (h.perform hC (hacts act List.mem_cons_self _)) fun act' hmem =>
        hacts act' (List.mem_cons_of_mem act hmem)

end Perform

end Machine.Holds

/-! ## Acts of managers -/

section Managers

variable {R : World → World → Prop} {manager : Nat} {name kind : String} {spec : ControllerSpec Job}

theorem steady_of_register (h : R w (w.register manager name kind spec).2) :
    (updateController manager name kind spec).Steady R w := Act.steady_update h

theorem steady_of_unregister (h : R w (w.unregister manager name).2) :
    (removeController manager name).Steady R w ∧
      (removeControllerAndWait manager name).Steady R w := by
  refine ⟨(Act.steady_update h).bind fun _ _ => trivial,
    (Act.steady_update h).bind fun taken w => ?_⟩
  cases taken with
  | error e => trivial
  | ok loop => exact Act.Steady.bind (fun _ => trivial) fun _ _ => trivial

theorem steady_of_unregisterAll (h : R w (w.unregisterAll manager).2) :
    (removeAll manager).Steady R w ∧ (removeAllAndWait manager).Steady R w :=
  ⟨(Act.steady_update h).bind fun _ _ => trivial, (Act.steady_update h).bind fun _ _ _ => trivial⟩

end Managers

/-! ## Acts that wait -/

/-- An act that begins with a change has it made when it goes on. -/
theorem Machine.perform_update {α β : Type} {f : World → β × World} {k : β → Act World α}
    {m m' : Machine} {a : α} (hnow : (f m.world).2.now = m.world.now)
    (h : m.perform (Act.update f >>= k) = (some a, m')) :
    ∃ fuel, Machine.runFrom fuel (k (f m.world).1) { m with world := (f m.world).2 } =
      (some a, m') := by
  unfold Machine.perform at h
  generalize Machine.patience = fuel at h
  cases fuel with
  | zero => cases h
  | succ fuel =>
      refine ⟨fuel + 1, Eq.trans ?_ h⟩
      unfold Machine.runFrom
      rw [hnow]
      rfl

/-- **An act that waits** comes back, with what it was to come back with, when what it waits for is so.
-/
theorem Machine.ready_of_await {α : Type} (ready : World → Bool) (a : α) (fuel : Nat) :
    (∀ m m' x, Machine.runFrom fuel (.await ready (.done a)) m = (some x, m') →
      ready m'.world = true ∧ x = a) ∧
    ∀ m m' x, Machine.runFrom.waitFor fuel (.awaiting ready (.done a)) m = (some x, m') →
      ready m'.world = true ∧ x = a := by
  have hdone : ∀ fuel m m' x, ready m.world = true →
      Machine.runFrom fuel (.done a) m = (some x, m') → ready m'.world = true ∧ x = a := by
    intro fuel m m' x hready hrun
    cases fuel with
    | zero => cases hrun
    | succ fuel =>
        cases hrun
        exact ⟨hready, rfl⟩
  have hresume : ∀ w : World, ∀ act, (Act.Blocked.awaiting ready (.done a)).resume? w.now w = some act →
      ready w = true ∧ act = .done a := by
    intro w act hresume
    simp only [Act.Blocked.resume?] at hresume
    split at hresume
    · next hready =>
      cases hresume
      exact ⟨hready, rfl⟩
    · cases hresume
  induction fuel with
  | zero => exact ⟨fun m m' x hrun => (by cases hrun), fun m m' x hrun => (by cases hrun)⟩
  | succ fuel ih =>
      obtain ⟨-, hwait⟩ := ih
      refine ⟨fun m m' x hrun => ?_, fun m m' x hrun => ?_⟩
      · by_cases hready : ready m.world = true
        · simp only [Machine.runFrom, Act.run, if_pos hready] at hrun
          cases hrun
          exact ⟨hready, rfl⟩
        · simp only [Machine.runFrom, Act.run, if_neg hready] at hrun
          exact hwait _ m' x hrun
      · unfold Machine.runFrom.waitFor at hrun
        split at hrun
        · next act hact =>
          obtain ⟨hready, rfl⟩ := hresume m.world act hact
          exact hdone fuel m m' x hready hrun
        · dsimp only at hrun
          split at hrun
          · next act hact =>
            obtain ⟨hready, rfl⟩ := hresume _ act hact
            exact hdone fuel _ m' x hready hrun
          · split at hrun
            · exact hwait _ m' x hrun
            · cases hrun

end Simulation

end FleetControl
