import FleetControl.Proofs.Site.Basic

/-!
# Programs side by side

Two programs that run side by side take turns. In a turn one of them asks its next request and goes
on to the one after it, so either program may be suspended at every request while the other one
proceeds. The order of the turns is left open.

What holds whatever the order is shown one program at a time. Each program has a standing, which says
how far it is, and an invariant ties both standings to the turns that were taken and to the state.
Each request of a program has to keep that up for some new standing of its own, whatever the standing
of the other program.

* `Program.interleave` — the run in a given order of turns;
* `Program.Keeps` — a program keeps an invariant up;
* `Program.interleave_keeps` — two programs that do, keep it up in every order.
-/

namespace FleetControl

/-- Which of two programs takes a turn. -/
inductive Turn where
  | first
  | second
  deriving DecidableEq, Repr

namespace Program

variable {ρ : Type} {Reply : ρ → Type} {α β γ δ σ : Type}

/-- Two programs side by side, with their turns in a given order. There is an outcome if both end with
the last turn and neither breaks off. -/
def interleave (answer : (r : ρ) → σ → Option (Reply r) × σ) :
    List Turn → Program ρ Reply α → Program ρ Reply β → σ → Option ((α × β) × σ)
  | [], done a, done b, s => some ((a, b), s)
  | .first :: turns, ask r next, q, s =>
    match answer r s with
    | (some reply, s) => interleave answer turns (next reply) q s
    | (none, _) => none
  | .second :: turns, p, ask r next, s =>
    match answer r s with
    | (some reply, s) => interleave answer turns p (next reply) s
    | (none, _) => none
  | _, _, _, _ => none

variable (answer : (r : ρ) → σ → Option (Reply r) × σ) (turn : Turn)
variable (J : γ → List Turn → δ → σ → Prop)

/-- From a standing on, the requests of a program keep an invariant up, and it ends with a value and a
standing that go together. The turns that were taken are listed with the last one first. -/
def Keeps (post : α → γ → Prop) : Program ρ Reply α → γ → Prop
  | done a, g => post a g
  | ask r next, g => ∀ past other s reply s', J g past other s → answer r s = (some reply, s') →
      ∃ g', J g' (turn :: past) other s' ∧ Keeps post (next reply) g'

variable {answer turn J}

theorem Keeps.pure {a : α} {post : α → γ → Prop} {g : γ} (h : post a g) :
    (Pure.pure a : Program ρ Reply α).Keeps answer turn J post g := h

/-- A program may go on from where another one ended. -/
theorem Keeps.bind {p : Program ρ Reply α} {f : α → Program ρ Reply β} {post : β → γ → Prop}
    {g : γ} (h : p.Keeps answer turn J (fun a g => (f a).Keeps answer turn J post g) g) :
    (p >>= f).Keeps answer turn J post g := by
  induction p generalizing g with
  | done a => exact h
  | ask r next ih =>
      intro past other s reply s' hJ hreply
      obtain ⟨g', hJ', hrest⟩ := h past other s reply s' hJ hreply
      exact ⟨g', hJ', ih reply hrest⟩

theorem Keeps.mono {p : Program ρ Reply α} {post post' : α → γ → Prop} {g : γ}
    (h : p.Keeps answer turn J post g) (himp : ∀ a g, post a g → post' a g) :
    p.Keeps answer turn J post' g := by
  induction p generalizing g with
  | done a => exact himp a g h
  | ask r next ih =>
      intro past other s reply s' hJ hreply
      obtain ⟨g', hJ', hrest⟩ := h past other s reply s' hJ hreply
      exact ⟨g', hJ', ih reply hrest⟩

/-- A program that asks a single request is judged by its run. -/
theorem Keeps.of_exec {p : Program ρ Reply α} {r : ρ} {f : Reply r → α}
    (hp : p = ask r fun reply => done (f reply)) {post : α → γ → Prop} {g : γ}
    (h : ∀ past other s a s', J g past other s → p.exec answer s = (some a, s') →
      ∃ g', J g' (turn :: past) other s' ∧ post a g') : p.Keeps answer turn J post g := by
  subst hp
  intro past other s reply s' hJ hreply
  have hrun : (ask r fun reply => done (f reply)).exec answer s = (some (f reply), s') := by
    simp only [exec, hreply]
  exact h past other s _ s' hJ hrun

/-- Two programs that keep an invariant up, each from its own side, keep it up together. -/
theorem interleave_keeps {I : List Turn → γ → δ → σ → Prop} {p : Program ρ Reply α}
    {q : Program ρ Reply β} {post : α → γ → Prop} {post' : β → δ → Prop} {g : γ} {d : δ}
    (hp : p.Keeps answer .first (fun g past d s => I past g d s) post g)
    (hq : q.Keeps answer .second (fun d past g s => I past g d s) post' d) {past : List Turn} {s : σ}
    (h : I past g d s) {turns : List Turn} {a : α} {b : β} {s' : σ}
    (hrun : interleave answer turns p q s = some ((a, b), s')) :
    ∃ g' d', I (turns.reverse ++ past) g' d' s' ∧ post a g' ∧ post' b d' := by
  induction turns generalizing p q g d past s with
  | nil =>
      cases p with
      | ask r next => cases hrun
      | done a =>
          cases q with
          | ask r next => cases hrun
          | done b =>
              cases hrun
              exact ⟨g, d, h, hp, hq⟩
  | cons turn rest ih =>
      rw [List.reverse_cons, List.append_assoc, List.singleton_append]
      cases turn with
      | first =>
          cases p with
          | done a => cases q <;> cases hrun
          | ask r next =>
              simp only [interleave] at hrun
              split at hrun
              · next reply s₁ hreply =>
                obtain ⟨g₁, h₁, hnext⟩ := hp past d s reply s₁ h hreply
                exact ih hnext hq h₁ hrun
              · cases hrun
      | second =>
          cases q with
          | done b => cases p <;> cases hrun
          | ask r next =>
              have hstep : interleave answer (.second :: rest) p (ask r next) s =
                  match answer r s with
                  | (some reply, s) => interleave answer rest p (next reply) s
                  | (none, _) => none := by
                cases p <;> rfl
              rw [hstep] at hrun
              split at hrun
              · next reply s₁ hreply =>
                obtain ⟨d₁, h₁, hnext⟩ := hq past g s reply s₁ h hreply
                exact ih hp hnext h₁ hrun
              · cases hrun

end Program

end FleetControl
