import FleetControl.Proofs.Site.Basic

/-!
# What a program asks

The state that a run leaves is made of the replies to the requests that were asked on the way, also
if the run breaks off. So what a program does is bounded by what it asks, and that is often told
without running it: a request that a program never asks, whatever the replies, is not asked in any
run.

* `Program.asked` — the requests of a run, in their order;
* `Program.exec_of_asked` — what every reply to them keeps, the run keeps;
* `Program.Only` — a program that asks nothing but requests of one kind.
-/

namespace FleetControl

namespace Program

variable {ρ : Type} {Reply : ρ → Type} {α β σ : Type}
variable (answer : (r : ρ) → σ → Option (Reply r) × σ)

/-- The requests that a program asks in a run, in their order. -/
def asked : Program ρ Reply α → σ → List ρ
  | done _, _ => []
  | ask r next, s =>
    r :: match answer r s with
      | (some reply, s) => asked (next reply) s
      | (none, _) => []

/-- A second program asks where the first one ended, unless that broke off. -/
theorem asked_bind (p : Program ρ Reply α) (f : α → Program ρ Reply β) (s : σ) :
    (p >>= f).asked answer s = p.asked answer s ++ match p.exec answer s with
      | (some a, s) => (f a).asked answer s
      | (none, _) => [] := by
  induction p generalizing s with
  | done a => rfl
  | ask r next ih =>
      change (ask r fun reply => next reply >>= f).asked answer s = _
      simp only [asked, exec]
      rcases answer r s with ⟨_ | reply, s'⟩
      · rfl
      · exact congrArg (r :: ·) (ih reply s')

variable {answer}

/-- **What every reply keeps that is asked for, a run keeps**, also if it breaks off. -/
theorem exec_of_asked {J : σ → Prop} {P : ρ → Prop}
    (hstep : ∀ r s, P r → J s → J (answer r s).2) {p : Program ρ Reply α} {s : σ} (h : J s)
    (hasked : ∀ r ∈ p.asked answer s, P r) : J (p.exec answer s).2 := by
  induction p generalizing s with
  | done a => exact h
  | ask r next ih =>
      simp only [asked, List.forall_mem_cons] at hasked
      obtain ⟨hr, hrest⟩ := hasked
      have hafter := hstep r s hr h
      simp only [exec]
      generalize answer r s = result at hrest hafter ⊢
      obtain ⟨_ | reply, s'⟩ := result
      · exact hafter
      · exact ih reply hafter hrest

/-! ## Requests of one kind -/

variable {P : ρ → Prop}

/-- A program that asks nothing but requests of one kind, whatever the replies. -/
def Only (P : ρ → Prop) : Program ρ Reply α → Prop
  | done _ => True
  | ask r next => P r ∧ ∀ reply, Only P (next reply)

namespace Only

theorem pure (a : α) : (Pure.pure a : Program ρ Reply α).Only P := trivial

/-- A request on its own. -/
theorem request {r : ρ} (h : P r) : (ask r done : Program ρ Reply (Reply r)).Only P :=
  ⟨h, fun _ => trivial⟩

theorem bind {p : Program ρ Reply α} {f : α → Program ρ Reply β} (hp : p.Only P)
    (hf : ∀ a, (f a).Only P) : (p >>= f).Only P := by
  induction p with
  | done a => exact hf a
  | ask r next ih => exact ⟨hp.1, fun reply => ih reply (hp.2 reply)⟩

theorem mono {Q : ρ → Prop} {p : Program ρ Reply α} (h : p.Only P) (himp : ∀ r, P r → Q r) :
    p.Only Q := by
  induction p with
  | done a => trivial
  | ask r next ih => exact ⟨himp r h.1, fun reply => ih reply (h.2 reply)⟩

/-- **No run asks anything else.** -/
theorem asked {p : Program ρ Reply α} (h : p.Only P)
    (answer : (r : ρ) → σ → Option (Reply r) × σ) (s : σ) : ∀ r ∈ p.asked answer s, P r := by
  induction p generalizing s with
  | done a =>
      intro r hr
      cases hr
  | ask r next ih =>
      rw [Program.asked, List.forall_mem_cons]
      refine ⟨h.1, ?_⟩
      rcases answer r s with ⟨_ | reply, s'⟩
      · intro r' hr'
        cases hr'
      · exact ih reply (h.2 reply) s'

end Only

end Program

end FleetControl
