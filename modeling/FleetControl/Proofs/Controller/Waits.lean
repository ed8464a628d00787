import FleetControl.Proofs.Controller.Lifecycle

/-!
# Counting and waiting

A controller counts its passes as they end, and how long it waits after a pass is told by the spec of
that pass, by its outcome and by the failures since the last success. Nothing else that happens to a
controller touches its counters, so they can be read off what it did, also where its spec was
replaced in between.

* `failuresInARow` — the failures since the last success;
* `Course.Tallied` — the counters and the wait of a controller, read off what it did;
* `Course.Tallied.after` — they are right whatever happens;
* `Course.Given` — all that a controller knows and has run is of one kind.
-/

namespace FleetControl

variable {J : Type}

/-- Whether a pass succeeded. -/
def EndedPass.succeeded (p : EndedPass J) : Bool := p.outcome.toBool

/-- The failures since the last success. -/
def failuresInARow (passes : List (EndedPass J)) : Nat :=
  (passes.reverse.takeWhile fun p => !p.succeeded).length

@[simp] theorem failuresInARow_nil : failuresInARow ([] : List (EndedPass J)) = 0 := rfl

/-- One more pass breaks the row or makes it longer. -/
theorem failuresInARow_concat (passes : List (EndedPass J)) (p : EndedPass J) :
    failuresInARow (passes ++ [p]) = if p.succeeded then 0 else failuresInARow passes + 1 := by
  unfold failuresInARow
  rw [List.reverse_concat, List.takeWhile_cons]
  cases p.succeeded <;> simp

/-- A row is empty exactly after a success. -/
theorem failuresInARow_concat_eq_zero_iff (passes : List (EndedPass J)) (p : EndedPass J) :
    failuresInARow (passes ++ [p]) = 0 ↔ p.succeeded = true := by
  rw [failuresInARow_concat]
  split <;> simp_all

namespace RunStats

variable (s : RunStats) (now : Instant) (p : EndedPass J)

theorem successes_count : (s.count now p.outcome).successes =
    if p.succeeded then s.successes + 1 else s.successes := by
  unfold EndedPass.succeeded
  cases p.outcome <;> rfl

theorem failures_count : (s.count now p.outcome).failures =
    if p.succeeded then s.failures else s.failures + 1 := by
  unfold EndedPass.succeeded
  cases p.outcome <;> rfl

theorem consecutive_count : (s.count now p.outcome).consecutive =
    if p.succeeded then 0 else min (s.consecutive + 1) Word.max32 := by
  unfold EndedPass.succeeded
  cases p.outcome <;> rfl

end RunStats

namespace Course

variable {c c' : Course J} {happening : Happening J}

/-- The passes that have ended. -/
def passes (c : Course J) : List (EndedPass J) := passesEnded c.trace

/-- What does not end a pass adds none. -/
theorem passes_eq {more : List (LoopEvent J)} (htrace : c'.trace = c.trace ++ more)
    (hnone : passesEnded more = []) : c'.passes = c.passes := by
  rw [passes, htrace, passesEnded_append, hnone, List.append_nil, passes]

/-- The counters of a controller and its wait are told by the passes that have ended. -/
structure Tallied (c : Course J) : Prop where
  successes : c.loop.stats.successes = c.passes.countP EndedPass.succeeded
  failures : c.loop.stats.failures = c.passes.countP fun p => !p.succeeded
  consecutive : c.loop.stats.consecutive = min (failuresInARow c.passes) Word.max32
  waits : ∀ span, c.loop.phase = .waiting span → ∃ earlier last, c.passes = earlier ++ [last] ∧
    span = last.spec.nextWait last.succeeded (min (failuresInARow c.passes) Word.max32)

namespace Tallied

theorem new (name kind : String) (spec : ControllerSpec J) : (new name kind spec).Tallied :=
  ⟨rfl, rfl, rfl, fun _ hwaiting => by cases hwaiting⟩

/-- What does not end a pass leaves the counters as they are. -/
theorem carries (h : c.Tallied) (hstats : c'.loop.stats = c.loop.stats)
    (hpasses : c'.passes = c.passes)
    (hphase : ∀ span, c'.loop.phase = .waiting span → c.loop.phase = .waiting span) :
    c'.Tallied := by
  obtain ⟨hsuccesses, hfailures, hconsecutive, hwaits⟩ := h
  refine ⟨?_, ?_, ?_, fun span hwaiting => ?_⟩
  · rw [hstats, hpasses, hsuccesses]
  · rw [hstats, hpasses, hfailures]
  · rw [hstats, hpasses, hconsecutive]
  · rw [hpasses]
    exact hwaits span (hphase span hwaiting)

/-- **A pass that ends** is counted, and the wait after it is chosen. -/
theorem endPass (h : c.Tallied) (now : Instant) (outcome : Except Failure Unit) :
    ({ c with
      loop := c.loop.endPass now outcome
      trace := c.trace ++ [.passEnded c.loop.spec outcome] } : Course J).Tallied := by
  let last : EndedPass J := ⟨c.loop.spec, outcome⟩
  have hpasses : ({ c with
      loop := c.loop.endPass now outcome
      trace := c.trace ++ [.passEnded c.loop.spec outcome] } : Course J).passes =
        c.passes ++ [last] := by
    simp [passes, passesEnded, LoopEvent.ended?, last]
  have hconsecutive : (c.loop.stats.count now last.outcome).consecutive =
      min (failuresInARow (c.passes ++ [last])) Word.max32 := by
    rw [RunStats.consecutive_count, h.consecutive, failuresInARow_concat]
    split
    · rw [Nat.zero_min]
    · omega
  refine ⟨?_, ?_, ?_, fun span hwaiting => ⟨c.passes, last, hpasses, ?_⟩⟩
  · rw [hpasses, List.countP_append, List.countP_singleton, ← h.successes]
    exact (RunStats.successes_count _ now last).trans (by split <;> rfl)
  · rw [hpasses, List.countP_append, List.countP_singleton, ← h.failures]
    exact (RunStats.failures_count _ now last).trans (by cases last.succeeded <;> rfl)
  · rw [hpasses]
    exact hconsecutive
  · rw [hpasses, ← hconsecutive]
    cases hwaiting
    rfl

/-- **Whatever happens**, the counters stay right. -/
theorem move (h : c.Tallied) (hmove : Move c happening c') : c'.Tallied := by
  cases hmove with
  | idle => exact h
  | update spec =>
      refine h.carries (Loop.stats_update _ _) rfl fun span hwaiting => ?_
      rwa [Loop.phase_update] at hwaiting
  | signalStop => exact h.carries rfl rfl fun _ hwaiting => hwaiting
  | disown => exact h.carries rfl rfl fun _ hwaiting => hwaiting
  | endPass => exact h.endPass _ _
  | begin | beginStop | endStop =>
      exact h.carries rfl (passes_eq rfl rfl) fun span hwaiting => by cases hwaiting

theorem after (h : c.Tallied) (happenings : List (Happening J)) : (c.after happenings).Tallied := by
  induction happenings generalizing c with
  | nil => exact h
  | cons happening rest ih => exact ih (h.move (c.move happening))

end Tallied

/-! ## Specs of one kind -/

/-- All specs that a controller knows and has run are of one kind. -/
structure Given (P : ControllerSpec J → Prop) (c : Course J) : Prop where
  spec : P c.loop.spec
  pending : ∀ later, c.loop.pending = some later → P later
  passes : ∀ p ∈ c.passes, P p.spec

namespace Given

variable {P : ControllerSpec J → Prop}

theorem new (name kind : String) {spec : ControllerSpec J} (h : P spec) :
    Given P (new name kind spec) :=
  ⟨h, fun _ hpending => (by cases hpending), fun _ hp => (by cases hp)⟩

theorem move (h : Given P c) (hgiven : ∀ spec, happening = .update spec → P spec)
    (hmove : Move c happening c') : Given P c' := by
  obtain ⟨hspec, hpending, hpasses⟩ := h
  have hlatest : P (c.loop.pending.getD c.loop.spec) := by
    cases hlater : c.loop.pending with
    | none => exact hspec
    | some later => exact hpending later hlater
  cases hmove with
  | idle => exact ⟨hspec, hpending, hpasses⟩
  | update spec =>
      have hnew := hgiven spec rfl
      unfold Loop.update
      split
      · exact ⟨hnew, hpending, hpasses⟩
      · refine ⟨hspec, fun later hlater => ?_, hpasses⟩
        cases hlater
        exact hnew
  | signalStop => exact ⟨hspec, hpending, hpasses⟩
  | disown => exact ⟨hspec, hpending, hpasses⟩
  | begin =>
      refine ⟨hlatest, fun _ hlater => (by cases hlater), ?_⟩
      rwa [passes_eq rfl rfl]
  | endPass =>
      refine ⟨hspec, hpending, fun p hp => ?_⟩
      simp only [Course.passes, passesEnded_append, List.mem_append] at hp
      rcases hp with hp | hp
      · exact hpasses p hp
      · obtain rfl := List.mem_singleton.1 hp
        exact hspec
  | beginStop | endStop =>
      refine ⟨hspec, hpending, ?_⟩
      rwa [passes_eq rfl rfl]

theorem after (h : Given P c) {happenings : List (Happening J)}
    (hgiven : ∀ spec, .update spec ∈ happenings → P spec) : Given P (c.after happenings) := by
  induction happenings generalizing c with
  | nil => exact h
  | cons happening rest ih =>
      refine ih (h.move ?_ (c.move happening)) fun spec hspec => ?_
      · rintro spec rfl
        exact hgiven spec List.mem_cons_self
      · exact hgiven spec (List.mem_cons_of_mem _ hspec)

end Given

end Course

end FleetControl
