import FleetControl.Simulation.Requests

/-!
# The machine

The machine runs acts in virtual time. Beside the act at hand it keeps what every controller is busy
with: a pass, its stop function, or a wait. Whatever can go on at the present time does so,
controllers in the order of their creation, until everything waits; only then the clock goes on, to
the next time that something waits for.

* `Machine.poll` — let one controller go on, if it can;
* `Machine.settle` — let all controllers go on until none can;
* `Machine.perform` — run an act to its end, with time going by as far as it has to.
-/

namespace FleetControl.Simulation

/-- What a controller is busy with. -/
inductive Task where
  /-- A pass or a stop function. -/
  | work (b : Act.Blocked World (Except Failure Unit))
  /-- A wait, until a time if there is one. -/
  | wait (wake : Option Nat)

/-- The time that a task waits for. -/
def Task.wake? : Task → Option Nat
  | .work b => b.wake?
  | .wait wake => wake

/-- A world and what its controllers are busy with, by their numbers. -/
structure Machine where
  world : World
  tasks : List (Nat × Task)

namespace Machine

/-- A world in which no controller has run. -/
def new (world : World) : Machine := ⟨world, []⟩

/-- What a controller is busy with. -/
def task? (m : Machine) (loop : Nat) : Option Task :=
  (m.tasks.find? fun t => t.1 == loop).map (·.2)

/-- Set what a controller is busy with. -/
def setTask (m : Machine) (loop : Nat) (task : Option Task) : Machine :=
  let others := m.tasks.filter fun t => t.1 != loop
  { m with tasks := match task with | some t => (loop, t) :: others | none => others }

/-- The failure that stands for a crash of a pass. -/
def crashed : Failure := .ofText "reconciler panicked"

/-- The step of a controller at the end of its work. -/
def endWork (m : Machine) (loop : Nat) (outcome : Except Failure Unit) : Machine :=
  match m.world.loops.get? loop with
  | none => m.setTask loop none
  | some l =>
    if l.phase = .stopping then
      { m with world := m.world.modifyLoop loop Loop.endStop }.setTask loop none
    else
      let ended := l.endPass m.world.instant outcome
      let wake :=
        match ended.phase with
        | .waiting (some span) => some (m.world.now + min span.millis Act.longestPause)
        | _ => none
      { m with world := m.world.modifyLoop loop fun _ => ended }.setTask loop (some (.wait wake))

/-- Let a controller work until its work ends or blocks. -/
def work (m : Machine) (loop : Nat) (act : Act World (Except Failure Unit)) : Machine :=
  let (progress, world) := act.run m.world.now m.world
  let m := { m with world }
  match progress with
  | .ended outcome => m.endWork loop outcome
  | .crashed => { m with world := m.world.endCallback loop }.endWork loop (.error crashed)
  | .blocked b => m.setTask loop (some (.work b))

/-- Begin the work of a controller that has just taken a step. -/
def begin (m : Machine) (loop : Nat) (l : Loop Job) : Machine :=
  let m := { m with world := m.world.modifyLoop loop fun _ => l }
  m.work loop (if l.phase = .stopping then stopJob loop l.spec.job else runJob loop l.spec.job)

/-- Let a controller go on, if it can. -/
def poll (m : Machine) (loop : Nat) : Option Machine := do
  let l ← m.world.loops.get? loop
  match l.phase with
  | .fresh => some (m.begin loop l.start)
  | .ended => none
  | .waiting _ =>
    let elapsed :=
      match m.task? loop with
      | some (.wait (some wake)) => decide (wake ≤ m.world.now)
      | _ => false
    (l.wake elapsed).map (m.begin loop)
  | .passing | .stopping =>
    match m.task? loop with
    | some (.work b) => (b.resume? m.world.now m.world).map (m.work loop)
    | _ => none

/-- Let each of the given controllers go on once, if it can; whether one could. -/
def pollEach (m : Machine) : List Nat → Bool × Machine
  | [] => (false, m)
  | loop :: rest =>
    match m.poll loop with
    | some m => (true, (pollEach m rest).2)
    | none => pollEach m rest

/-- Let all controllers go on until none can, in at most `fuel` rounds. -/
def settle : Nat → Machine → Machine
  | 0, m => m
  | fuel + 1, m =>
    match m.pollEach (List.range m.world.loops.size) with
    | (true, m) => settle fuel m
    | (false, m) => m

/-- The next time that something waits for. -/
def nextTime (m : Machine) (wake : Option Nat) : Option Nat :=
  (wake.toList ++ m.tasks.filterMap fun t => t.2.wake?).min?

/-- Set the clock to a time that is not past. -/
def goOn (m : Machine) (time : Nat) : Machine :=
  { m with world := { m.world with now := max m.world.now time } }

/-- How many steps the machine takes before it gives up on an act that never ends. -/
def patience : Nat := 4611686018427387904

/-- Run an act from where it stands to its end, in at most `fuel` steps. A crash, and an act that
waits for what never comes, end with `none`. -/
def runFrom {α : Type} : Nat → Act World α → Machine → Option α × Machine
  | 0, _, m => (none, m)
  | fuel + 1, act, m =>
    let (progress, world) := act.run m.world.now m.world
    let m := { m with world }
    match progress with
    | .ended a => (some a, m)
    | .crashed => (none, m)
    | .blocked b => waitFor fuel b m
where
  /-- Wait until a blocked act can go on, in at most `fuel` steps, and run it to its end. -/
  waitFor {α : Type} : Nat → Act.Blocked World α → Machine → Option α × Machine
    | 0, _, m => (none, m)
    | fuel + 1, b, m =>
      match b.resume? m.world.now m.world with
      | some act => runFrom fuel act m
      | none =>
        let m := m.settle patience
        match b.resume? m.world.now m.world with
        | some act => runFrom fuel act m
        | none =>
          match m.nextTime b.wake? with
          | some time => waitFor fuel b (m.goOn time)
          | none => (none, m)

/-- Run an act to its end. Controllers go on only while the act waits. -/
def perform {α : Type} (m : Machine) (act : Act World α) : Option α × Machine :=
  runFrom patience act m

/-- Let everything happen that can happen now. -/
def rest (m : Machine) : Machine := m.settle patience

end Machine

end FleetControl.Simulation
