/-!
# Programs that ask

The reconcilers are written as programs that ask for what they cannot compute: the time, a store
operation, a call to an agent. A program is a tree: it is done with a value, or it asks a request
and goes on from the reply. What the replies are is decided elsewhere, so one program can be run in
a simulated world, against any pattern of agent outcomes, or step by step between the steps of
another.

* `Program.bind` — go on with a second program from the value of the first; `bind_assoc`,
  `bind_done` and `done_bind` are the laws;
* `Program.run` — the run in which a function answers every request and may change a state.
-/

namespace FleetControl

/-- A program that asks requests of type `ρ`, each with its own type of replies, and ends with an
`α`. -/
inductive Program (ρ : Type) (Reply : ρ → Type) (α : Type) where
  | done (a : α)
  | ask (r : ρ) (next : Reply r → Program ρ Reply α)

namespace Program

variable {ρ : Type} {Reply : ρ → Type} {α β γ σ : Type}

/-- Go on with a second program from the value of the first. -/
def bind : Program ρ Reply α → (α → Program ρ Reply β) → Program ρ Reply β
  | done a, f => f a
  | ask r next, f => ask r fun reply => (next reply).bind f

instance : Monad (Program ρ Reply) where
  pure := done
  bind := bind

@[simp] theorem done_bind (a : α) (f : α → Program ρ Reply β) : (done a).bind f = f a := rfl

@[simp] theorem ask_bind (r : ρ) (next : Reply r → Program ρ Reply α)
    (f : α → Program ρ Reply β) :
    (ask r next).bind f = ask r fun reply => (next reply).bind f := rfl

theorem bind_done (p : Program ρ Reply α) : p.bind done = p := by
  induction p with
  | done a => rfl
  | ask r next ih => simp [ih]

theorem bind_assoc (p : Program ρ Reply α) (f : α → Program ρ Reply β)
    (g : β → Program ρ Reply γ) : (p.bind f).bind g = p.bind fun a => (f a).bind g := by
  induction p with
  | done a => rfl
  | ask r next ih => simp [ih]

/-- The run of a program in which `answer` replies to every request and may change a state. -/
def run (answer : (r : ρ) → σ → Reply r × σ) : Program ρ Reply α → σ → α × σ
  | done a, s => (a, s)
  | ask r next, s => run answer (next (answer r s).1) (answer r s).2

theorem run_bind (answer : (r : ρ) → σ → Reply r × σ) (p : Program ρ Reply α)
    (f : α → Program ρ Reply β) (s : σ) :
    (p.bind f).run answer s = (f (p.run answer s).1).run answer (p.run answer s).2 := by
  induction p generalizing s with
  | done a => rfl
  | ask r next ih => simp [run, ih]

end Program

end FleetControl
