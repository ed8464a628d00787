import FleetControl.Proofs.Store.Agreement
import FleetControl.Simulation.World

/-!
# Histories of the two backends

A client uses a store at instants that do not go back, and now and then somebody compacts it. What
the client gets back does not tell which backend it is, nor when it was compacted: two histories with
the same uses can be woven into one, and along it the backends keep agreeing.

* `Move` and `uses` — what is done with a store, and what a client does with it;
* `Backend.replies` — what the client gets back;
* `Woven` — two histories with the same uses;
* `Backend.replies_eq` — a client gets the same from both backends.
-/

namespace FleetControl

open Simulation (Backend)

/-! ## What is done with a store -/

/-- What a client does with a store. -/
inductive StoreUse (σ : Type) where
  | ask (op : StoreOp)
  /-- Show a visitor what is under a scope, until it has seen enough. -/
  | walk (scope : String) (visitor : Snapshot → σ → Bool × σ) (start : σ)

/-- Change the answer of an operation. -/
def Outcome.map {α β : Type} (f : α → β) : Outcome α → Outcome β
  | answer a => answer (f a)
  | refused e => refused e
  | undatable => undatable

namespace StoreUse

variable {σ : Type}

/-- What a client gets back. After a walk it has what the visitor remembers, and how much it was
shown. -/
def Reply : StoreUse σ → Type
  | ask op => Outcome op.Reply
  | walk .. => Outcome (Nat × σ)

/-- The scope that is scanned, if one is. -/
def scope? : StoreUse σ → Option String
  | ask (.list scope) => some scope
  | ask _ => none
  | walk scope .. => some scope

end StoreUse

/-- A store is used, or somebody compacts it. -/
inductive Move (σ : Type) where
  | use (now : Instant) (u : StoreUse σ)
  | compact (now : Instant)

/-- The instant of a move. -/
def Move.now {σ : Type} : Move σ → Instant
  | use now _ => now
  | compact now => now

/-- What the client does in a history. -/
def uses {σ : Type} : List (Move σ) → List (Instant × StoreUse σ)
  | [] => []
  | .use now u :: rest => (now, u) :: uses rest
  | .compact _ :: rest => uses rest

/-- Instants do not go back. -/
def InOrder {σ : Type} (moves : List (Move σ)) : Prop :=
  moves.Pairwise fun a b => a.now.nanos ≤ b.now.nanos

namespace Simulation.Backend

variable {σ : Type}

/-- What comes of a use. -/
def use (now : Instant) : (u : StoreUse σ) → Backend → u.Reply × Backend
  | .ask op, b => b.apply now op
  | .walk scope visitor start, b =>
    let r := b.apply now (.list scope)
    (r.1.map fun found => visitSnapshots visitor found start, r.2)

/-- What the client gets back in a history. -/
def replies : List (Move σ) → Backend → List ((u : StoreUse σ) × u.Reply)
  | [], _ => []
  | .use now u :: rest, b => ⟨u, (b.use now u).1⟩ :: replies rest (b.use now u).2
  | .compact now :: rest, b => replies rest (b.compact now).2

/-- A store in memory and a table that agree. -/
inductive Alike (now : Instant) : Backend → Backend → Prop where
  | mk {m : Memory} {t : Table} (agree : Agree now m t) : Alike now (memory m) (table t)

namespace Alike

variable {now : Instant} {b b' : Backend}

theorem later (h : Alike now b b') {later : Instant} (hle : now.nanos ≤ later.nanos) :
    Alike later b b' := by
  obtain ⟨agree⟩ := h
  exact ⟨agree.later hle⟩

/-- **A use** has the same reply, and the backends agree afterwards. -/
theorem use (h : Alike now b b') {u : StoreUse σ}
    (hscope : ∀ scope, u.scope? = some scope → Char.ofNat 0 ∉ scope.toList) :
    (b.use now u).1 = (b'.use now u).1 ∧ Alike now (b.use now u).2 (b'.use now u).2 := by
  obtain @⟨m, t, agree⟩ := h
  cases u with
  | ask op =>
      have happly : Agree.Alike now (m.apply now op) (t.apply now op) :=
        agree.apply fun scope hop => hscope scope (by rw [hop]; rfl)
      exact ⟨happly.answer, ⟨happly.agree⟩⟩
  | walk scope visitor start =>
      have hlist := agree.list (hscope scope rfl)
      exact ⟨congrArg (Outcome.map fun found => visitSnapshots visitor found start) hlist.answer,
        ⟨hlist.agree⟩⟩

/-- Compacting the store in memory changes nothing. -/
theorem compact_left (h : Alike now b b') {earlier : Instant} (hle : earlier.nanos ≤ now.nanos) :
    Alike now (b.compact earlier).2 b' := by
  obtain ⟨agree⟩ := h
  exact ⟨agree.compact_memory hle⟩

/-- Compacting the table changes nothing. -/
theorem compact_right (h : Alike now b b') {earlier : Instant} (hle : earlier.nanos ≤ now.nanos) :
    Alike now b (b'.compact earlier).2 := by
  obtain ⟨agree⟩ := h
  exact ⟨agree.compact_table hle⟩

end Alike

end Simulation.Backend

/-! ## Histories with the same uses -/

section Histories

variable {σ : Type}

/-- Two histories with the same uses, between which either store may be compacted. -/
inductive Woven : List (Move σ) → List (Move σ) → Prop where
  | nil : Woven [] []
  | use {now : Instant} {u : StoreUse σ} {moves moves' : List (Move σ)} (rest : Woven moves moves') :
      Woven (.use now u :: moves) (.use now u :: moves')
  | left {now : Instant} {moves moves' : List (Move σ)} (rest : Woven moves moves') :
      Woven (.compact now :: moves) moves'
  | right {now : Instant} {moves moves' : List (Move σ)} (rest : Woven moves moves') :
      Woven moves (.compact now :: moves')

/-- Histories with the same uses can be woven. -/
theorem woven_of_uses_eq {moves moves' : List (Move σ)} (h : uses moves = uses moves') :
    Woven moves moves' := by
  induction moves generalizing moves' with
  | nil =>
      induction moves' with
      | nil => exact .nil
      | cons move rest ih =>
          cases move with
          | use now u => cases h
          | compact now => exact .right (ih h)
  | cons move rest ih =>
      cases move with
      | compact now => exact .left (ih h)
      | use now u =>
          induction moves' with
          | nil => cases h
          | cons move' rest' ih' =>
              cases move' with
              | compact now' => exact .right (ih' h)
              | use now' u' =>
                  simp only [uses, List.cons.injEq, Prod.mk.injEq] at h
                  obtain ⟨⟨rfl, rfl⟩, hrest⟩ := h
                  exact .use (ih hrest)

theorem Woven.uses_eq {moves moves' : List (Move σ)} (h : Woven moves moves') :
    uses moves = uses moves' := by
  induction h with
  | nil => rfl
  | use _ ih => exact congrArg (_ :: ·) ih
  | left _ ih => exact ih
  | right _ ih => exact ih

/-- No use comes before an instant. -/
def Since (now : Instant) (moves : List (Move σ)) : Prop :=
  ∀ x ∈ uses moves, now.nanos ≤ x.1.nanos

/-- What comes after a move is not before it. -/
theorem InOrder.since {move : Move σ} {rest : List (Move σ)} (h : InOrder (move :: rest)) :
    Since move.now rest := by
  have hall := (List.pairwise_cons.1 h).1
  clear h
  induction rest with
  | nil =>
      intro x hx
      cases hx
  | cons next rest ih =>
      intro x hx
      have hrest := ih fun a ha => hall a (List.mem_cons_of_mem _ ha)
      cases next with
      | compact now => exact hrest x hx
      | use now u =>
          rcases List.mem_cons.1 hx with rfl | hx
          · exact hall (.use now u) (by simp)
          · exact hrest x hx

/-- There is an instant that all uses come after. -/
theorem InOrder.exists_since {moves : List (Move σ)} (h : InOrder moves) :
    ∃ now, Since now moves := by
  cases moves with
  | nil => exact ⟨default, fun x hx => by cases hx⟩
  | cons move rest =>
      refine ⟨move.now, fun x hx => ?_⟩
      cases move with
      | compact now => exact h.since x hx
      | use now u =>
          rcases List.mem_cons.1 hx with rfl | hx
          · exact Int.le_refl _
          · exact h.since x hx

/-- If no use comes before two instants, then none comes before the later of them. -/
theorem Since.later {now now' : Instant} {moves : List (Move σ)} (h : Since now moves)
    (h' : Since now' moves) :
    ∃ later, now.nanos ≤ later.nanos ∧ now'.nanos ≤ later.nanos ∧ Since later moves := by
  rcases Int.le_total now.nanos now'.nanos with hle | hle
  · exact ⟨now', hle, Int.le_refl _, h'⟩
  · exact ⟨now, Int.le_refl _, hle, h⟩

open Simulation.Backend (Alike)

/-- Along woven histories backends that agree give the same replies. -/
theorem Woven.same_replies {moves moves' : List (Move σ)} (h : Woven moves moves') {now : Instant}
    {b b' : Backend} (halike : Alike now b b') (horder : InOrder moves) (horder' : InOrder moves')
    (hsince : Since now moves)
    (hscopes : ∀ x ∈ uses moves, ∀ scope, x.2.scope? = some scope →
      Char.ofNat 0 ∉ scope.toList) :
    b.replies moves = b'.replies moves' := by
  induction h generalizing now b b' with
  | nil => rfl
  | @use at' u moves moves' rest ih =>
      have hnow : now.nanos ≤ at'.nanos := hsince (at', u) (by simp [uses])
      obtain ⟨hreply, hafter⟩ := (halike.later hnow).use (u := u)
        (hscopes (at', u) (by simp [uses]))
      have hrest := ih hafter (List.pairwise_cons.1 horder).2 (List.pairwise_cons.1 horder').2
        horder.since fun x hx => hscopes x (by simp [uses, hx])
      simp only [Simulation.Backend.replies, hreply, hrest]
  | @left at' moves moves' rest ih =>
      obtain ⟨later, hnow, hcompact, hlater⟩ := Since.later hsince horder.since
      exact ih ((halike.later hnow).compact_left hcompact) (List.pairwise_cons.1 horder).2 horder'
        hlater hscopes
  | @right at' moves moves' rest ih =>
      have hrest : Since at' moves := by
        intro x hx
        rw [rest.uses_eq] at hx
        exact horder'.since x hx
      obtain ⟨later, hnow, hcompact, hlater⟩ := Since.later hsince hrest
      exact ih ((halike.later hnow).compact_right hcompact) horder (List.pairwise_cons.1 horder').2
        hlater hscopes

/-- **A client gets the same from both backends**: new ones with the same grace that are used in the
same way, at instants that do not go back, give the same replies, whenever either is compacted. -/
theorem Simulation.Backend.replies_eq (grace : Span) {moves moves' : List (Move σ)}
    (order : InOrder moves) (order' : InOrder moves') (same : uses moves = uses moves')
    (scopes : ∀ x ∈ uses moves, ∀ scope, x.2.scope? = some scope →
      Char.ofNat 0 ∉ scope.toList) :
    (Backend.memory (.new grace)).replies moves = (Backend.table (.new grace)).replies moves' := by
  obtain ⟨now, hsince⟩ := order.exists_since
  exact (woven_of_uses_eq same).same_replies ⟨.new now grace⟩ order order' hsince scopes

end Histories

/-- A tombstone whose grace is over is dropped from memory by a compaction, and the table still has
its row; scans, a walk and a new key do not tell. -/
theorem Simulation.Backend.compaction_goes_unnoticed :
    let at' := fun seconds : Nat => (⟨seconds * 1000000000, false⟩ : Instant)
    let before : List (Move (List String)) :=
      [.use (at' 0) (.ask (.set "a/1" [1])), .use (at' 1) (.ask (.delete "a/1")),
        .use (at' 2) (.ask (.list "a/"))]
    let after : List (Move (List String)) :=
      [.use (at' 60) (.walk "a/" (fun kv seen => (true, kv.key :: seen)) []),
        .use (at' 60) (.ask (.create "a/1" [2])), .use (at' 61) (.ask (.getAny "a/1"))]
    (Backend.memory (.new defaultGrace)).replies (before ++ .compact (at' 50) :: after) =
      (Backend.table (.new defaultGrace)).replies (before ++ after) := by
  intro at' before after
  refine Simulation.Backend.replies_eq defaultGrace ?_ ?_ rfl ?_
  · simp [InOrder, before, after, at', Move.now]
  · simp [InOrder, before, after, at', Move.now]
  · simp [before, after, uses, StoreUse.scope?]

end FleetControl
