import FleetControl.Program

/-!
# Acts in virtual time

An act is what happens in a simulated world: it looks at the world, changes it, sleeps for a number
of milliseconds, waits for a condition, and ends with a value or in a crash. Only sleeping and
waiting let time pass and other acts take their turn; everything between two of them happens at
once.

* `Act.pause` — let time pass, but never more than thirty years at once;
* `Act.run` — run an act until it ends or blocks;
* `Act.within` — give an act up at a deadline: an act that ends exactly at the deadline is in time;
* `Act.ofProgram` — the act of a program, given an act for every request.
-/

namespace FleetControl.Simulation

/-- An act in a world of type `σ` that ends with an `α`. -/
inductive Act (σ α : Type) where
  | done (a : α)
  /-- The act breaks off. -/
  | crash
  | read (next : σ → Act σ α)
  | write (change : σ → σ) (next : Act σ α)
  | sleep (millis : Nat) (next : Act σ α)
  /-- Wait until the world satisfies a condition. -/
  | await (ready : σ → Bool) (next : Act σ α)

namespace Act

variable {σ α β : Type} {ρ : Type} {Reply : ρ → Type}

/-- Go on with a second act from the value of the first. -/
def bind : Act σ α → (α → Act σ β) → Act σ β
  | done a, f => f a
  | crash, _ => crash
  | read next, f => read fun s => (next s).bind f
  | write change next, f => write change (next.bind f)
  | sleep millis next, f => sleep millis (next.bind f)
  | await ready next, f => await ready (next.bind f)

instance : Monad (Act σ) where
  pure := done
  bind := bind

/-- Look at the world. -/
def get (f : σ → α) : Act σ α := read fun s => done (f s)

/-- Change the world. -/
def modify (change : σ → σ) : Act σ Unit := write change (done ())

/-- Look at the world and change it. -/
def update (f : σ → α × σ) : Act σ α :=
  read fun s => write (fun _ => (f s).2) (done (f s).1)

/-- The milliseconds of the longest pause: thirty years of 365 days. -/
def longestPause : Nat := 30 * 365 * 86400 * 1000

/-- Let time pass, at most as much as the longest pause. -/
def pause (millis : Nat) : Act σ Unit := sleep (min millis longestPause) (done ())

/-- Wait for a condition. -/
def awaiting (ready : σ → Bool) : Act σ Unit := await ready (done ())

/-- Give an act up after `left` milliseconds of sleep. Sleep that ends exactly then is still in
time, and waiting for a condition does not count. -/
def within (left : Nat) : Act σ α → Act σ (Option α)
  | done a => done (some a)
  | crash => crash
  | read next => read fun s => (next s).within left
  | write change next => write change (next.within left)
  | sleep millis next =>
    if millis ≤ left then sleep millis (next.within (left - millis))
    else sleep left (done none)
  | await ready next => await ready (next.within left)

/-- The act of a program, given an act for every request. -/
def ofProgram (answer : (r : ρ) → Act σ (Reply r)) : Program ρ Reply α → Act σ α
  | .done a => done a
  | .ask r next => (answer r).bind fun reply => ofProgram answer (next reply)

/-! ## Running -/

/-- An act that waits. -/
inductive Blocked (σ α : Type) where
  /-- Until a time. -/
  | sleeping (wake : Nat) (next : Act σ α)
  /-- Until the world satisfies a condition. -/
  | awaiting (ready : σ → Bool) (next : Act σ α)

/-- How far an act has come. -/
inductive Progress (σ α : Type) where
  | ended (a : α)
  | crashed
  | blocked (b : Blocked σ α)

/-- Run an act at a time until it ends or blocks. -/
def run (now : Nat) : Act σ α → σ → Progress σ α × σ
  | done a, s => (.ended a, s)
  | crash, s => (.crashed, s)
  | read next, s => (next s).run now s
  | write change next, s => next.run now (change s)
  | sleep 0 next, s => next.run now s
  | sleep (n + 1) next, s => (.blocked (.sleeping (now + (n + 1)) next), s)
  | await ready next, s =>
    if ready s then next.run now s else (.blocked (.awaiting ready next), s)

namespace Blocked

/-- The rest of the act, if it may go on now. -/
def resume? (b : Blocked σ α) (now : Nat) (s : σ) : Option (Act σ α) :=
  match b with
  | sleeping wake next => if wake ≤ now then some next else none
  | awaiting ready next => if ready s then some next else none

/-- The time at which the act goes on, if it waits for one. -/
def wake? : Blocked σ α → Option Nat
  | sleeping wake _ => some wake
  | awaiting .. => none

end Blocked

end Act

end FleetControl.Simulation
