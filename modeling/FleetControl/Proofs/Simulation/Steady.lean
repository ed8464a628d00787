import FleetControl.Proofs.Lookout.Basic
import FleetControl.Simulation.Machine

/-!
# What acts leave as it is

An act changes the world in steps, and whenever it sleeps or waits others take their turn, so nothing
can be said of the world after an act but what each of its steps does. An act is steady for a relation
if each of its steps takes the world to a related one, whatever others have made of the world while it
slept. Steadiness passes from the parts of an act to the whole.

* `Act.Steady` — every step relates the world before it and the world after it;
* `Act.Steady.bind`, `Act.Steady.within`, `Act.Steady.ofProgram` — from the parts to the whole;
* `Served` — what the requests of the control plane do to the world: they move the store, and leave the
  caches, the controllers and who is kept as they were;
* `steady_control`, `steady_callback` — programs of the control plane and callbacks.
-/

namespace FleetControl.Simulation

namespace Act

variable {α β γ : Type} {R R' : World → World → Prop} {w : World}

theorem bind_assoc (act : Act World α) (f : α → Act World β) (g : β → Act World γ) :
    (act.bind f).bind g = act.bind fun a => (f a).bind g := by
  induction act with
  | done a => rfl
  | crash => rfl
  | read next ih => exact congrArg read (funext ih)
  | write change next ih => exact congrArg (write change) ih
  | sleep millis next ih => exact congrArg (sleep millis) ih
  | await ready next ih => exact congrArg (await ready) ih

/-- Programs one after the other are acts one after the other. -/
theorem ofProgram_bind {ρ : Type} {Reply : ρ → Type} (answer : (r : ρ) → Act World (Reply r))
    (p : Program ρ Reply α) (f : α → Program ρ Reply β) :
    ofProgram answer (p >>= f) = ofProgram answer p >>= fun a => ofProgram answer (f a) := by
  induction p with
  | done a => rfl
  | ask r next ih =>
      change (answer r).bind (fun reply => ofProgram answer (next reply >>= f)) =
        ((answer r).bind fun reply => ofProgram answer (next reply)).bind _
      rw [bind_assoc]
      exact congrArg _ (funext ih)

/-- Every step of an act, from a world on, relates the world before it and the world after it. -/
def Steady (R : World → World → Prop) : Act World α → World → Prop
  | done _, _ => True
  | crash, _ => True
  | read next, w => (next w).Steady R w
  | write change next, w => R w (change w) ∧ next.Steady R (change w)
  | sleep _ next, _ => ∀ w, next.Steady R w
  | await _ next, _ => ∀ w, next.Steady R w

/-- What is left of an act that waits is steady, whatever the world is when it goes on. -/
def Blocked.Steady (R : World → World → Prop) : Blocked World α → Prop
  | sleeping _ next => ∀ w, next.Steady R w
  | awaiting _ next => ∀ w, next.Steady R w

namespace Steady

theorem mono (hR : ∀ w w', R w w' → R' w w') {act : Act World α} (h : act.Steady R w) :
    act.Steady R' w := by
  induction act generalizing w with
  | done a => trivial
  | crash => trivial
  | read next ih => exact ih _ h
  | write change next ih => exact ⟨hR _ _ h.1, ih h.2⟩
  | sleep millis next ih => exact fun w => ih (h w)
  | await ready next ih => exact fun w => ih (h w)

/-- Two acts one after the other. -/
theorem bind {act : Act World α} {f : α → Act World β} (h : act.Steady R w)
    (hf : ∀ a w, (f a).Steady R w) : (act >>= f).Steady R w := by
  change (act.bind f).Steady R w
  induction act generalizing w with
  | done a => exact hf a w
  | crash => trivial
  | read next ih => exact ih _ h
  | write change next ih => exact ⟨h.1, ih h.2⟩
  | sleep millis next ih => exact fun w => ih (h w)
  | await ready next ih => exact fun w => ih (h w)

/-- An act with a deadline. -/
theorem within {act : Act World α} (h : act.Steady R w) (left : Nat) :
    (act.within left).Steady R w := by
  induction act generalizing w left with
  | done a => trivial
  | crash => trivial
  | read next ih => exact ih _ h left
  | write change next ih => exact ⟨h.1, ih h.2 left⟩
  | sleep millis next ih =>
      unfold Act.within
      split
      · exact fun w => ih (h w) _
      · exact fun _ => trivial
  | await ready next ih => exact fun w => ih (h w) left

/-- The act of a program. -/
theorem ofProgram {ρ : Type} {Reply : ρ → Type} {answer : (r : ρ) → Act World (Reply r)}
    (h : ∀ r w, (answer r).Steady R w) (p : Program ρ Reply α) (w : World) :
    (Act.ofProgram answer p).Steady R w := by
  induction p generalizing w with
  | done a => trivial
  | ask r next ih => exact (h r w).bind fun reply w => ih reply w

/-- What an act has done when it ends or waits, and what is left of it. -/
theorem run (hrefl : ∀ w, R w w) (htrans : ∀ w w' w'', R w w' → R w' w'' → R w w'')
    {act : Act World α} (h : act.Steady R w) (now : Nat) :
    R w (act.run now w).2 ∧ ∀ b, (act.run now w).1 = .blocked b → b.Steady R := by
  induction act generalizing w with
  | done a => exact ⟨hrefl w, nofun⟩
  | crash => exact ⟨hrefl w, nofun⟩
  | read next ih => exact ih _ h
  | write change next ih =>
      obtain ⟨hrest, hleft⟩ := ih h.2
      exact ⟨htrans _ _ _ h.1 hrest, hleft⟩
  | sleep millis next ih =>
      cases millis with
      | zero => exact ih (h w)
      | succ n =>
          refine ⟨hrefl w, fun b hb => ?_⟩
          cases hb
          exact h
  | await ready next ih =>
      unfold Act.run
      split
      · exact ih (h w)
      · refine ⟨hrefl w, fun b hb => ?_⟩
        cases hb
        exact h

end Steady

theorem steady_pause (millis : Nat) : (pause millis : Act World Unit).Steady R w := fun _ => trivial

theorem steady_get (f : World → α) : (get f).Steady R w := trivial

theorem steady_update {f : World → α × World} (h : R w (f w).2) : (update f).Steady R w :=
  ⟨h, trivial⟩

theorem steady_modify {f : World → World} (h : R w (f w)) : (modify f).Steady R w := ⟨h, trivial⟩

/-- A blocked act that goes on. -/
theorem Blocked.Steady.resume {b : Blocked World α} (h : b.Steady R) {now : Nat} {act : Act World α}
    (hresume : b.resume? now w = some act) : act.Steady R w := by
  cases b with
  | sleeping wake next =>
      simp only [Blocked.resume?] at hresume
      split at hresume <;> cases hresume
      exact h w
  | awaiting ready next =>
      simp only [Blocked.resume?] at hresume
      split at hresume <;> cases hresume
      exact h w

end Act

/-! ## Requests of the control plane -/

/-- What the requests of the control plane do to the world: they move the store and leave the caches,
the controllers and who is kept as they were. -/
structure Served (w w' : World) : Prop where
  store : ∃ moves : List StoreMove, w'.backend = moves.foldl Backend.moved w.backend
  rest : w' = { w with
    now := w'.now, backend := w'.backend, faults := w'.faults, agents := w'.agents
    schedulers := w'.schedulers, handlers := w'.handlers }

namespace Served

variable {w w' w'' : World}

theorem refl (w : World) : Served w w := ⟨⟨[], rfl⟩, rfl⟩

theorem trans (h : Served w w') (h' : Served w' w'') : Served w w'' := by
  obtain ⟨⟨moves, hmoves⟩, hrest⟩ := h
  obtain ⟨⟨moves', hmoves'⟩, hrest'⟩ := h'
  refine ⟨⟨moves ++ moves', ?_⟩, ?_⟩
  · rw [hmoves', hmoves, List.foldl_append]
  · rw [hrest', hrest]

/-- The store stays as it is. -/
theorem of_rest (hbackend : w'.backend = w.backend) (hrest : w' = { w with
    now := w'.now, backend := w'.backend, faults := w'.faults, agents := w'.agents
    schedulers := w'.schedulers, handlers := w'.handlers }) : Served w w' :=
  ⟨⟨[], hbackend⟩, hrest⟩

end Served

variable {w : World}

/-- **An operation of the store**, or a fault. -/
theorem steady_storeOp (op : StoreOp) : (storeOp op).Steady Served w := by
  unfold storeOp
  simp only [Act.Steady]
  split
  · exact ⟨.of_rest rfl rfl, trivial⟩
  · refine ⟨⟨⟨[.ask w.instant op], rfl⟩, rfl⟩, ?_⟩
    generalize (Backend.apply w.instant op w.backend).1 = outcome
    cases outcome <;> trivial

/-- **A call to a bench agent** changes the agent. -/
theorem steady_callBench (id : Nat) (action : PipelineAction) (request : PipelineRequest) :
    (callBench id action request).Steady Served w := by
  unfold callBench
  refine (Act.steady_update ?_).bind fun delay w => ?_
  · split
    · exact .of_rest rfl rfl
    · exact .refl w
  refine (Act.steady_pause _).bind fun _ w => (Act.steady_update ?_).bind fun refusal w => ?_
  · split
    · exact .of_rest rfl rfl
    · exact .refl w
  cases refusal with
  | some e => trivial
  | none =>
      refine (Act.steady_update ?_).bind fun done w => (Act.steady_pause _).bind fun _ _ => trivial
      split
      · exact .of_rest rfl rfl
      · exact .refl w

/-- A scripted agent's next reply. -/
theorem steady_nextScripted (id : Nat) : (nextScripted id).Steady Served w := by
  unfold nextScripted
  refine (Act.steady_update ?_).bind fun reply w => ?_
  · split
    · exact .of_rest rfl rfl
    · exact .refl w
  · cases reply with
    | none => trivial
    | some r => exact (Act.steady_pause _).bind fun _ _ => trivial

/-- **A call to an agent.** -/
theorem steady_callAgent (id : Nat) (action : PipelineAction) (request : PipelineRequest) :
    (callAgent id action request).Steady Served w := by
  unfold callAgent
  simp only [Act.Steady]
  split
  · exact steady_callBench id action request
  · refine (steady_nextScripted id).bind fun reply w => ?_
    cases reply <;> trivial

/-- **A question about an agent's health.** -/
theorem steady_askHealth (id : Nat) : (askHealth id).Steady Served w := by
  unfold askHealth
  simp only [Act.Steady]
  split
  · trivial
  · refine (steady_nextScripted id).bind fun reply w => ?_
    cases reply <;> trivial

/-- **Every request of the control plane.** -/
theorem steady_answer (scheduler : Nat) (r : Request) (w : World) :
    (answer scheduler r).Steady Served w := by
  cases r with
  | clock => trivial
  | store op => exact steady_storeOp op
  | agents => trivial
  | connect name => trivial
  | place spec candidates =>
      refine Act.steady_update ?_
      unfold placeBy
      split
      · exact .refl w
      · exact .of_rest rfl rfl
  | call connection deadline action request => exact (steady_callAgent _ _ _).within _
  | health connection deadline => exact (steady_askHealth _).within _

/-- **A program of the control plane.** -/
theorem steady_control {α : Type} (scheduler : Nat) (p : Span → Control α) :
    (control scheduler p).Steady Served w :=
  .ofProgram (steady_answer scheduler) _ w

/-- **A callback**, of whichever handler. -/
theorem steady_callback (handler : HandlerId) (event : WatchEvent) :
    (callback handler event).Steady Served w := by
  unfold callback
  simp only [Act.Steady]
  split
  · trivial
  · exact steady_control _ _
  · refine (Act.steady_pause _).bind fun _ w => Act.steady_update ?_
    split
    · exact .of_rest rfl rfl
    · exact .refl w

end FleetControl.Simulation
