import FleetControl.Cache.Sweep
import FleetControl.Proofs.Controller.Waits
import FleetControl.Proofs.Exchanges

/-!
# How long a sweep waits

A round of the sweep deals with one remembered key after the other, and a key that cannot be dealt
with does not keep it from the others. But it makes the round fail, and a failed round is waited for
like any other failed pass: with back-off. The base of the delay is the sweep interval, so after two
failures in a row the wait is longer than the interval, and it grows with every further failure, for
all keys of the cache.

* `Watching.Blames` — a program that tells whether one of its requests failed;
* `sweep_fails_iff`, `present_of_sweep` — what makes a round fail, and that it asks for every key;
* `Course.sweep_waits` — the wait at any time in the life of a sweep;
* `Course.second_failed_sweep_waits_longer` — a wait of two intervals.
-/

namespace FleetControl

/-! ## Rounds -/

/-- A request of an observer with its reply. -/
abbrev WatchExchange := (r : WatchRequest) × r.Reply

/-- Whether it is an existence check or a callback that failed. -/
def WatchExchange.failed : WatchExchange → Bool
  | ⟨.present _, reply⟩ => !Except.toBool reply
  | ⟨.notify _ _, reply⟩ => !Except.toBool reply
  | _ => false

/-- Whether it asked if the pass was to stop, and it was. -/
def WatchExchange.stops : WatchExchange → Bool
  | ⟨.cancelled, stop⟩ => stop
  | _ => false

namespace Watching

variable {σ α β : Type}

/-- A program that tells by its result whether one of its requests failed, given whether there was a
failure before. -/
def Blames (fails : α → Bool) (before : Bool) : Watching α → Prop
  | Program.done a => fails a = before
  | Program.ask r next => ∀ reply, Blames fails (before || WatchExchange.failed ⟨r, reply⟩) (next reply)

namespace Blames

variable {fails : α → Bool} {fails' : β → Bool} {before : Bool} {p : Watching α}

theorem bind {f : α → Watching β} (hp : Blames fails before p)
    (hf : ∀ a, Blames fails' (fails a) (f a)) : Blames fails' before (p >>= f) := by
  induction p generalizing before with
  | done a =>
      cases hp
      exact hf a
  | ask r next ih => exact fun reply => ih reply (hp reply)

/-- A failure before stays one. -/
theorem after (hp : Blames fails before p) (earlier : Bool) :
    Blames (fun a => earlier || fails a) (earlier || before) p := by
  induction p generalizing before with
  | done a => exact congrArg (earlier || ·) hp
  | ask r next ih =>
      intro reply
      rw [Bool.or_assoc]
      exact ih reply (hp reply)

/-- **What a run tells** is whether one of its exchanges failed. -/
theorem run (hp : Blames fails before p) (answer : (r : WatchRequest) → σ → r.Reply × σ) (x : σ) :
    fails (p.run answer x).1 =
      (before || (p.exchanges (Program.always answer) x).any WatchExchange.failed) := by
  induction p generalizing before x with
  | done a => exact hp.trans (Bool.or_false _).symm
  | ask r next ih =>
      refine (ih _ (hp _) _).trans ?_
      rw [Bool.or_assoc]
      rfl

theorem sweepKey (key : String) : Blames id false (FleetControl.sweepKey key) := by
  intro found
  rcases found with e | _ | _
  · rfl
  · intro handler
    cases handler with
    | none => exact fun _ => rfl
    | some handler =>
        intro outcome
        cases outcome with
        | error e => rfl
        | ok => exact fun _ => rfl
  · rfl

theorem sweepKeys (keys : List String) :
    Blames (fun failed => failed != 0) false (FleetControl.sweepKeys keys) := by
  induction keys with
  | nil => rfl
  | cons key rest ih =>
      intro stop
      cases stop with
      | true => rfl
      | false =>
          refine (sweepKey key).bind fun failed => ?_
          have hrest := ih.after failed
          rw [Bool.or_false] at hrest
          refine hrest.bind fun more => ?_
          cases failed with
          | true => simp [Blames, pure]
          | false => rfl

/-- **A round** fails with one of its keys. -/
theorem sweep : Blames (fun outcome => !outcome.toBool) false FleetControl.sweep := by
  intro keys
  refine (sweepKeys keys).bind fun failed => ?_
  by_cases hnone : failed = 0
  · simp [hnone, Blames, pure, Except.toBool]
  · simp [hnone, Blames, pure, Except.toBool]

end Blames

end Watching

section Rounds

open Program

variable {σ : Type} (answer : (r : WatchRequest) → σ → r.Reply × σ)

/-- Unless it is asked to stop, the sweep deals with the first key and then with the others. -/
theorem exchanges_sweepKeys_cons (key : String) (rest : List String) (x : σ) :
    ∃ (stop : Bool) (y : σ), (sweepKeys (key :: rest)).exchanges (always answer) x =
      ⟨.cancelled, stop⟩ :: if stop then [] else
        (sweepKey key).exchanges (always answer) y ++
          (sweepKeys rest).exchanges (always answer) ((sweepKey key).run answer y).2 := by
  refine ⟨(answer .cancelled x).1, (answer .cancelled x).2, ?_⟩
  change (Watching.cancelled >>= _).exchanges (always answer) x = _
  rw [exchanges_bind_always]
  refine congrArg (List.cons _) ?_
  change (if _ = true then _ else _ : Watching Nat).exchanges (always answer) _ = _
  split
  · next hstop => exact (if_pos hstop).symm
  · next hgoes =>
    rw [exchanges_bind_always, exchanges_bind_pure]
    exact (if_neg hgoes).symm

/-- Unless it is asked to stop, the sweep asks for every key, whatever comes of the others. -/
theorem present_of_sweepKeys {keys : List String} {x : σ}
    (hgoes : ((sweepKeys keys).exchanges (always answer) x).any WatchExchange.stops = false) :
    ∀ key ∈ keys, ∃ found, ⟨.present key, found⟩ ∈ (sweepKeys keys).exchanges (always answer) x := by
  induction keys generalizing x with
  | nil => exact fun key hkey => absurd hkey List.not_mem_nil
  | cons key rest ih =>
      obtain ⟨stop, y, hlog⟩ := exchanges_sweepKeys_cons answer key rest x
      rw [hlog] at hgoes ⊢
      cases stop with
      | true => cases hgoes
      | false =>
          obtain ⟨-, hlater⟩ := Bool.or_eq_false_iff.1 (List.any_append ▸ hgoes)
          rintro k hk
          rcases List.mem_cons.1 hk with rfl | hk
          · exact ⟨_, List.mem_cons_of_mem _ (List.mem_append_left _ List.mem_cons_self)⟩
          · obtain ⟨found, hfound⟩ := ih hlater k hk
            exact ⟨found, List.mem_cons_of_mem _ (List.mem_append_right _ hfound)⟩

/-- **A round fails** exactly if an existence check or a callback in it failed. -/
theorem sweep_fails_iff (x : σ) : (∃ e, (sweep.run answer x).1 = .error e) ↔
    (sweep.exchanges (always answer) x).any WatchExchange.failed = true := by
  have hrun := Watching.Blames.sweep.run answer x
  rw [Bool.false_or] at hrun
  rw [← hrun]
  cases (sweep.run answer x).1 with
  | ok => exact iff_of_false (fun ⟨_, h⟩ => by cases h) Bool.false_ne_true
  | error e => exact iff_of_true ⟨e, rfl⟩ rfl

/-- **A round asks for every key of the cache**, unless it is asked to stop. -/
theorem present_of_sweep (x : σ)
    (hgoes : (sweep.exchanges (always answer) x).any WatchExchange.stops = false) :
    let keys : List String := (answer .cachedKeys x).1
    ∀ key ∈ keys, ∃ found, ⟨.present key, found⟩ ∈ sweep.exchanges (always answer) x := by
  intro keys key hkey
  have hlog : sweep.exchanges (always answer) x = ⟨.cachedKeys, keys⟩ ::
      (sweepKeys keys).exchanges (always answer) (answer .cachedKeys x).2 := by
    change (Watching.cachedKeys >>= _).exchanges (always answer) x = _
    rw [exchanges_bind_always]
    refine congrArg (List.cons _) ((exchanges_bind_always answer _ _ _).trans ?_)
    rw [apply_ite (fun p => exchanges (always answer) p _)]
    exact (congrArg _ (ite_self _)).trans (List.append_nil _)
  rw [hlog] at hgoes ⊢
  obtain ⟨found, hfound⟩ := present_of_sweepKeys answer hgoes key hkey
  exact ⟨found, List.mem_cons_of_mem _ hfound⟩

end Rounds

/-! ## Waits -/

/-- A multiple of a span is longer than the span, if it is a true one and there are longer spans. -/
theorem Span.timesUpTo_le_iff {s : Span} (h : 0 < s.nanos) (n : Nat) :
    (s.timesUpTo n).nanos ≤ s.nanos ↔ n ≤ 1 ∨ longest.nanos ≤ s.nanos := by
  have hmul : n * s.nanos ≤ 1 * s.nanos ↔ n ≤ 1 := Nat.mul_le_mul_right_iff h
  rw [Nat.one_mul] at hmul
  simp only [timesUpTo]
  omega

/-- The wait after a round: the interval after a success, and as many intervals as there were
failures in a row. -/
theorem sweepSpec_nextWait {J : Type} {interval : Span} (h : 0 < interval.nanos) (round : J)
    (succeeded : Bool) (failures : Nat) :
    (sweepSpec interval round).nextWait succeeded failures =
      some (if succeeded then interval else interval.timesUpTo (max failures 1)) := by
  have hnonempty : interval.isZero = false := beq_false_of_ne h.ne'
  cases succeeded with
  | true => simp [sweepSpec, ControllerSpec.nextWait, ControllerSpec.once, hnonempty]
  | false => simp [sweepSpec, ControllerSpec.nextWait, ControllerSpec.once, retryDelay, hnonempty]

namespace Course

variable {σ J : Type}

/-- **The wait of a sweep.** A round fails exactly if an existence check or a callback in it failed,
and asks for every key all the same. But whatever has happened to the sweep of a cache, the wait that
it is in is told by the failed rounds since the last good one: it is the interval after none or one,
and longer after more of them, as many intervals as there were failures, up to the longest span. -/
theorem sweep_waits (answer : (r : WatchRequest) → σ → r.Reply × σ) (x : σ) (name : String)
    {interval : Span} (hpositive : 0 < interval.nanos) (round : J) {happenings : List (Happening J)}
    (hupdates : ∀ spec, .update spec ∈ happenings → ∃ round, spec = sweepSpec interval round) :
    let log := sweep.exchanges (Program.always answer) x
    let keys : List String := (answer .cachedKeys x).1
    let c := (new name sweepKind (sweepSpec interval round)).after happenings
    let failures := failuresInARow c.passes
    ((∃ e, (sweep.run answer x).1 = .error e) ↔ log.any WatchExchange.failed = true) ∧
      (log.any WatchExchange.stops = false → ∀ key ∈ keys, ∃ found, ⟨.present key, found⟩ ∈ log) ∧
      ∀ span, c.loop.phase = .waiting span → ∃ wait, span = some wait ∧
        (wait = if failures = 0 then interval else interval.timesUpTo (min failures Word.max32)) ∧
        (wait.nanos ≤ interval.nanos ↔ failures ≤ 1 ∨ Span.longest.nanos ≤ interval.nanos) := by
  intro log keys c failures
  refine ⟨sweep_fails_iff answer x, present_of_sweep answer x, fun span hwaiting => ?_⟩
  obtain ⟨earlier, last, hpasses, hspan⟩ :=
    ((Tallied.new name sweepKind (sweepSpec interval round)).after happenings).waits span hwaiting
  obtain ⟨round', hspec⟩ : ∃ round, last.spec = sweepSpec interval round :=
    ((Given.new name sweepKind ⟨round, rfl⟩).after hupdates).passes last
      (hpasses ▸ List.mem_concat_self)
  have hgood : failures = 0 ↔ last.succeeded = true := by
    change failuresInARow c.passes = 0 ↔ _
    rw [hpasses, failuresInARow_concat_eq_zero_iff]
  have hcap : 2 ≤ Word.max32 := by decide
  have hwait : last.spec.nextWait last.succeeded (min failures Word.max32) = some
      (if failures = 0 then interval else interval.timesUpTo (min failures Word.max32)) := by
    rw [hspec, sweepSpec_nextWait hpositive]
    by_cases hnone : failures = 0
    · rw [if_pos (hgood.1 hnone), if_pos hnone]
    · rw [if_neg (mt hgood.2 hnone), if_neg hnone, Nat.max_eq_left (by omega)]
  refine ⟨_, hspan.trans hwait, rfl, ?_⟩
  split
  · next hnone => exact iff_of_true (Nat.le_refl _) (.inl (by omega))
  · rw [Span.timesUpTo_le_iff hpositive]
    omega

/-- Two keys are gone and the handler of the first is busy. The round fails, the second key is asked
for all the same; but after three such rounds the sweep waits for three intervals. -/
theorem failed_sweep_waits_longer :
    let busy : Except Failure Unit := .error (.ofText "busy")
    let answer : (r : WatchRequest) → Nat → r.Reply × Nat := fun r n => match r with
      | .cancelled => (false, n)
      | .scan _ => (.ok [], n)
      | .present _ => (.ok false, n)
      | .cached _ => (none, n)
      | .record _ _ | .forget _ => ((), n)
      | .cachedKeys => (["a/x", "b/y"], n)
      | .handlerFor key => (some (if key = "a/x" then 0 else 1), n)
      | .notify handler _ => (if handler = 0 then busy else .ok (), n + 1)
    let round := sweepSpec (.ofSeconds 1) ()
    let log := sweep.exchanges (Program.always answer) 0
    let happenings := [.start, .endPass default busy, .wake true, .update round,
      .endPass default busy, .wake false, .endPass default busy]
    (∃ e, (sweep.run answer 0).1 = .error e) ∧ (∃ found, ⟨.present "b/y", found⟩ ∈ log) ∧
      ∃ wait, ((new "cache-sweep:c" sweepKind round).after happenings).loop.phase =
        .waiting (some wait) ∧ wait = (Span.ofSeconds 1).timesUpTo 3 ∧
          ¬ wait.nanos ≤ (Span.ofSeconds 1).nanos := by
  intro busy answer round log happenings
  have hpositive : 0 < (Span.ofSeconds 1).nanos := by decide
  have hupdates : ∀ spec, .update spec ∈ happenings →
      ∃ round, spec = sweepSpec (.ofSeconds 1) round := by
    simp [happenings, round]
  obtain ⟨hfails, hasks, hwaits⟩ := sweep_waits answer 0 "cache-sweep:c" hpositive () hupdates
  have hphase : ((new "cache-sweep:c" sweepKind round).after happenings).loop.phase =
      .waiting (some (.ofSeconds 3)) := by decide
  have hfailures :
      failuresInARow ((new "cache-sweep:c" sweepKind round).after happenings).passes = 3 := by decide
  obtain ⟨wait, hwait, htimes, hlonger⟩ := hwaits _ hphase
  rw [hfailures] at htimes hlonger
  cases hwait
  have hfailed : log.any WatchExchange.failed = true := by decide
  have hgoes : log.any WatchExchange.stops = false := by decide
  exact ⟨hfails.2 hfailed, hasks hgoes "b/y" (List.mem_cons_of_mem _ List.mem_cons_self),
    _, hphase, htimes, fun hle => absurd (hlonger.1 hle) (by decide)⟩

/-- **A sweep that failed twice in a row** waits for two intervals. -/
theorem second_failed_sweep_waits_longer :
    let failed : Happening Unit :=
      .endPass default (.error (.ofText "1 cached keys could not be reconciled"))
    ((new "cache-sweep:c" sweepKind (sweepSpec (.ofSeconds 1) ())).after
      [.start, failed, .wake true, failed]).loop.phase = .waiting (some (.ofSeconds 2)) ∧
        (Span.ofSeconds 1).nanos < (Span.ofSeconds 2).nanos := by
  decide

end Course

end FleetControl
