import FleetControl.Proofs.Controller.Waits

/-!
# Delays between passes

After a success a controller waits for its interval, and without end if that is empty. After a failure
it waits for a base delay, or for as many of them as there were failures in a row, and a spec that does
not retry early waits as after a success. The failures in a row are counted for the controller and not
for its spec: a new spec goes on with the number that it finds. So under one spec the delays of a row
of failures grow from one to the next, until they reach the longest span, and a success starts them
over.

* `ControllerSpec.Chooses` — the wait that a spec asks for;
* `NoLonger` — a wait ends no later than another one;
* `Course.Tallied.noLonger` — no wait of a row of failures under one spec is shorter than the last;
* `Course.counts_and_delays` — the counters of a controller and its wait, over its whole life.
-/

namespace FleetControl

variable {J : Type}

/-! ## The wait that a spec asks for -/

/-- The base delay of a spec; one second stands in for an empty one. -/
def ControllerSpec.delayBase (s : ControllerSpec J) : Span :=
  if s.retryBase.nanos = 0 then .ofSeconds 1 else s.retryBase

/-- The wait that a spec asks for after a pass, given how many failures in a row there are. Without an
end it is `none`. -/
structure ControllerSpec.Chooses (s : ControllerSpec J) (succeeded : Bool) (failures : Nat)
    (wait : Option Span) : Prop where
  regular : succeeded = true ∨ s.noRetry = true →
    wait = if s.interval.nanos = 0 then none else some s.interval
  linear : succeeded = false → s.noRetry = false → s.backoff = true →
    wait = some ⟨min (failures * s.delayBase.nanos) Span.longest.nanos⟩
  constant : succeeded = false → s.noRetry = false → s.backoff = false → wait = some s.delayBase

/-- A wait ends no later than another one, if that ends at all. -/
def NoLonger (wait wait' : Option Span) : Prop :=
  ∀ span', wait' = some span' → ∃ span, wait = some span ∧ span.nanos ≤ span'.nanos

theorem NoLonger.refl (wait : Option Span) : NoLonger wait wait :=
  fun span' h => ⟨span', h, Nat.le_refl _⟩

namespace ControllerSpec

/-- After a failure that is retried early, the wait is the retry delay. -/
private theorem nextWait_of_retried {s : ControllerSpec J} (h : s.noRetry = false)
    (failures : Nat) :
    s.nextWait false failures =
      some (if s.backoff then s.delayBase.timesUpTo (max failures 1) else s.delayBase) := by
  simp [nextWait, h, retryDelay, delayBase, defaultRetryBase, Span.isZero]

/-- **The wait of a spec** is the one that it asks for, if a failure is counted as one at least. -/
theorem chooses_nextWait (s : ControllerSpec J) {succeeded : Bool} {failures : Nat}
    (h : succeeded = false → 1 ≤ failures) :
    s.Chooses succeeded failures (s.nextWait succeeded failures) where
  regular := by
    intro hregular
    have hgate : (succeeded || s.noRetry) = true := by simpa using hregular
    simp [nextWait, hgate, Span.isZero]
  linear := by
    rintro rfl hretry hbackoff
    rw [nextWait_of_retried hretry, if_pos hbackoff, Nat.max_eq_left (h rfl)]
    rfl
  constant := by
    rintro rfl hretry hbackoff
    rw [nextWait_of_retried hretry, if_neg (by simp [hbackoff])]

/-- **More failures in a row** make no wait of a spec shorter. -/
theorem noLonger_nextWait (s : ControllerSpec J) {failures failures' : Nat}
    (h : failures ≤ failures') :
    NoLonger (s.nextWait false failures) (s.nextWait false failures') := by
  cases hretry : s.noRetry with
  | true =>
      have hsame : s.nextWait false failures = s.nextWait false failures' := by
        simp [nextWait, hretry]
      rw [hsame]
      exact .refl _
  | false =>
      rw [nextWait_of_retried hretry, nextWait_of_retried hretry]
      rintro _ ⟨⟩
      refine ⟨_, rfl, ?_⟩
      split
      · have htimes : max failures 1 * s.delayBase.nanos ≤ max failures' 1 * s.delayBase.nanos :=
          Nat.mul_le_mul_right _ (by omega)
        simp only [Span.timesUpTo]
        omega
      · exact Nat.le_refl _

/-- **A first failure** waits for the base delay. -/
theorem nextWait_first {s : ControllerSpec J} (hretry : s.noRetry = false)
    (hbase : s.retryBase.nanos ≤ Span.longest.nanos) : s.nextWait false 1 = some s.delayBase := by
  have hfits : s.delayBase.nanos ≤ Span.longest.nanos := by
    unfold delayBase
    split
    · decide
    · exact hbase
  rw [nextWait_of_retried hretry]
  split
  · simp only [Span.timesUpTo, Nat.max_self, Nat.one_mul, Nat.min_eq_left hfits]
  · rfl

end ControllerSpec

/-! ## Rows of failures -/

/-- There is no row after a success, nor before the first pass. -/
theorem failuresInARow_eq_zero_iff (passes : List (EndedPass J)) :
    failuresInARow passes = 0 ↔ ∀ p, passes.getLast? = some p → p.succeeded = true := by
  rcases List.eq_nil_or_concat passes with rfl | ⟨earlier, last, rfl⟩
  · simp
  · rw [List.concat_eq_append, failuresInARow_concat_eq_zero_iff, List.getLast?_concat]
    simp

/-- More failures make a row longer. -/
theorem failuresInARow_append {row : List (EndedPass J)}
    (h : ∀ p ∈ row, p.succeeded = false) (passes : List (EndedPass J)) :
    failuresInARow (passes ++ row) = failuresInARow passes + row.length := by
  induction row generalizing passes with
  | nil => simp
  | cons p rest ih =>
      have hp := h p List.mem_cons_self
      have hrest := ih (fun q hq => h q (List.mem_cons_of_mem _ hq)) (passes ++ [p])
      rw [List.append_assoc, List.singleton_append, failuresInARow_concat, hp] at hrest
      simp only [hrest, List.length_cons, Bool.false_eq_true, if_false]
      omega

namespace Course

/-! ## The wait that a controller is in -/

namespace Tallied

variable {c c' : Course J} {wait wait' : Option Span}
variable {earlier row : List (EndedPass J)} {last : EndedPass J}

/-- The spec of the last pass chooses the wait. -/
private theorem wait_eq (h : c.Tallied) (hwaiting : c.loop.phase = .waiting wait)
    (hpasses : c.passes = earlier ++ [last]) :
    wait = last.spec.nextWait last.succeeded (min (failuresInARow c.passes) Word.max32) := by
  obtain ⟨earlier', last', hpasses', hwait⟩ := h.waits wait hwaiting
  obtain ⟨-, hlast⟩ := List.append_inj' (hpasses.symm.trans hpasses') rfl
  obtain rfl := List.singleton_inj.1 hlast
  exact hwait

theorem chooses (h : c.Tallied) (hwaiting : c.loop.phase = .waiting wait)
    (hpasses : c.passes = earlier ++ [last]) :
    last.spec.Chooses last.succeeded (min (failuresInARow c.passes) Word.max32) wait := by
  rw [h.wait_eq hwaiting hpasses]
  refine last.spec.chooses_nextWait fun hfailed => ?_
  have hcap : 1 ≤ Word.max32 := by decide
  rw [hpasses, failuresInARow_concat, hfailed, if_neg Bool.false_ne_true]
  omega

/-- **The first failure of a row** waits for the base delay. -/
theorem wait_of_first (h : c.Tallied) (hwaiting : c.loop.phase = .waiting wait)
    (hpasses : c.passes = earlier ++ [last])
    (hbefore : ∀ p, earlier.getLast? = some p → p.succeeded = true)
    (hfailed : last.succeeded = false) (hretry : last.spec.noRetry = false)
    (hbase : last.spec.retryBase.nanos ≤ Span.longest.nanos) :
    wait = some last.spec.delayBase := by
  rw [h.wait_eq hwaiting hpasses, hpasses, failuresInARow_concat,
    (failuresInARow_eq_zero_iff earlier).2 hbefore, hfailed]
  exact ControllerSpec.nextWait_first hretry hbase

/-- **A row of failures under one spec** that goes on makes the wait no shorter. -/
theorem noLonger (h : c.Tallied) (hwaiting : c.loop.phase = .waiting wait) (h' : c'.Tallied)
    (hwaiting' : c'.loop.phase = .waiting wait') (hpasses : c.passes = earlier ++ [last])
    (hpasses' : c'.passes = c.passes ++ row) (hfailed : last.succeeded = false)
    (hrow : ∀ p ∈ row, p.succeeded = false ∧ p.spec = last.spec) : NoLonger wait wait' := by
  obtain ⟨earlier', last', hends, -⟩ := h'.waits wait' hwaiting'
  -- The last pass of the longer row failed, too, and under the same spec.
  have hlast : last'.succeeded = false ∧ last'.spec = last.spec := by
    have hfinal : (earlier ++ ([last] ++ row)).getLast? = some last' := by
      rw [← List.append_assoc, ← hpasses, ← hpasses', hends, List.getLast?_concat]
    rw [List.getLast?_append, Option.or_eq_some_iff] at hfinal
    rcases hfinal with hfinal | ⟨hnone, -⟩
    · rcases List.mem_cons.1 (List.mem_of_getLast? hfinal) with rfl | hmem
      · exact ⟨hfailed, rfl⟩
      · exact hrow _ hmem
    · cases List.getLast?_eq_none_iff.1 hnone
  have hlonger := failuresInARow_append (fun p hp => (hrow p hp).1) c.passes
  rw [h.wait_eq hwaiting hpasses, h'.wait_eq hwaiting' hends, hlast.1, hlast.2, hfailed, hpasses',
    hlonger]
  exact ControllerSpec.noLonger_nextWait _ (by omega)

end Tallied

/-- **Counters and delays.** Whatever happens to a controller in whatever order, its counters tell how
many of its passes succeeded and failed, and how many failed since the last success, up to the limit of
a word; a new spec leaves them alone. A pass that ends is counted, and a wait is chosen. The wait that a
controller is in is the one that the spec of the last pass asks for, given the failures in a row; the
first failure of a row waits for the base delay of its spec, if that is a span at all; and no wait of a
row of failures under one spec is shorter than an earlier one. -/
theorem counts_and_delays (name kind : String) (spec : ControllerSpec J)
    (happenings : List (Happening J)) :
    let c := (new name kind spec).after happenings
    let failures := min (failuresInARow c.passes) Word.max32
    (c.loop.stats.successes = c.passes.countP EndedPass.succeeded ∧
      c.loop.stats.failures = c.passes.countP (fun p => !p.succeeded) ∧
      c.loop.stats.consecutive = failures ∧
      ∀ later, (c.step (.update later)).loop.stats = c.loop.stats) ∧
    (c.loop.phase = .passing → ∀ now outcome,
      (c.step (.endPass now outcome)).passes = c.passes ++ [⟨c.loop.spec, outcome⟩] ∧
        ∃ wait, (c.step (.endPass now outcome)).loop.phase = .waiting wait) ∧
    ∀ wait, c.loop.phase = .waiting wait → ∃ earlier last, c.passes = earlier ++ [last] ∧
      last.spec.Chooses last.succeeded failures wait ∧
      ((∀ p, earlier.getLast? = some p → p.succeeded = true) → last.succeeded = false →
        last.spec.noRetry = false → last.spec.retryBase.nanos ≤ Span.longest.nanos →
          wait = some last.spec.delayBase) ∧
      ∀ more wait' row, (c.after more).loop.phase = .waiting wait' →
        (c.after more).passes = c.passes ++ row → last.succeeded = false →
          (∀ p ∈ row, p.succeeded = false ∧ p.spec = last.spec) → NoLonger wait wait' := by
  intro c failures
  have h : c.Tallied := (Tallied.new name kind spec).after happenings
  refine ⟨⟨h.successes, h.failures, h.consecutive, fun later => Loop.stats_update _ _⟩, ?_, ?_⟩
  · intro hpassing now outcome
    have hstep : c.step (.endPass now outcome) = { c with
        loop := c.loop.endPass now outcome
        trace := c.trace ++ [.passEnded c.loop.spec outcome] } := by
      simp [step, Loop.happen?, hpassing, LoopEvent.of]
    rw [hstep]
    exact ⟨passesEnded_append _ _, _, rfl⟩
  · intro wait hwaiting
    obtain ⟨earlier, last, hpasses, -⟩ := h.waits wait hwaiting
    exact ⟨earlier, last, hpasses, h.chooses hwaiting hpasses, h.wait_of_first hwaiting hpasses,
      fun more wait' row hwaiting' => h.noLonger hwaiting (h.after more) hwaiting' hpasses⟩

/-- A controller fails under one spec and then under another, which goes on with the number of failures
that it finds: its delay is twice its base, and three times after one more failure. One that panics
after a success waits for its base delay. -/
theorem delays_of_failing :
    let slow : ControllerSpec Unit := ⟨(), .ofSeconds 5, .ofMillis 10, true, false⟩
    let slower : ControllerSpec Unit := { slow with retryBase := .ofMillis 20 }
    let late : Except Failure Unit := .error (.ofText "late")
    let panicked : Except Failure Unit := .error (.ofText "reconciler panicked")
    let failing : Course Unit := (new "a" "b" slow).after
      [.start, .update slower, .endPass default late, .wake false, .endPass default late]
    let relapsing : Course Unit := (new "a" "b" slow).after
      [.start, .endPass default (.ok ()), .wake true, .endPass default panicked]
    (failing.loop.stats.failures = 2 ∧ failing.loop.stats.consecutive = 2) ∧
      failing.loop.phase = .waiting (some (.ofMillis 40)) ∧
      NoLonger (some (.ofMillis 40)) (some (.ofMillis 60)) ∧
      relapsing.loop.phase = .waiting (some slow.delayBase) := by
  intro slow slower late panicked failing relapsing
  obtain ⟨⟨-, hfailures, hconsecutive, -⟩, -, hwaits⟩ := counts_and_delays "a" "b" slow
    [.start, .update slower, .endPass default late, .wake false, .endPass default late]
  obtain ⟨-, -, hwaits'⟩ := counts_and_delays "a" "b" slow
    [.start, .endPass default (.ok ()), .wake true, .endPass default panicked]
  have hlate : failing.passes = [⟨slow, late⟩] ++ [⟨slower, late⟩] := rfl
  have hphase : failing.loop.phase = .waiting (some (.ofMillis 40)) := by decide
  have hrelapse : relapsing.passes = [⟨slow, .ok ()⟩] ++ [⟨slow, panicked⟩] := rfl
  have hphase' : relapsing.loop.phase = .waiting (some (.ofMillis 10)) := by decide
  refine ⟨⟨hfailures, hconsecutive⟩, hphase, ?_, ?_⟩
  · obtain ⟨earlier, last, hpasses, -, -, hgrow⟩ := hwaits _ hphase
    obtain ⟨-, hlast⟩ := List.append_inj' (hpasses.symm.trans hlate) rfl
    obtain rfl := List.singleton_inj.1 hlast
    refine hgrow [.wake true, .endPass default late] _ [⟨slower, late⟩] (by decide) rfl rfl
      fun p hp => ?_
    obtain rfl := List.mem_singleton.1 hp
    exact ⟨rfl, rfl⟩
  · obtain ⟨earlier, last, hpasses, -, hfirst, -⟩ := hwaits' _ hphase'
    obtain ⟨hearlier, hlast⟩ := List.append_inj' (hpasses.symm.trans hrelapse) rfl
    obtain rfl := List.singleton_inj.1 hlast
    refine hphase'.trans (congrArg Phase.waiting (hfirst (fun p hp => ?_) rfl rfl (by decide)))
    rw [hearlier] at hp
    obtain rfl := Option.some.inj hp
    rfl

end Course

end FleetControl
