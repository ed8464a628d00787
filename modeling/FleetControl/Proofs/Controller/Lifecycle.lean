import FleetControl.Controller.Loop

/-!
# The life of a controller

A controller takes a step when something happens to its loop, and updates, the stop signal and the loss
of its owner may come between any two steps. Whatever comes when, and whatever becomes of its passes
and of its stop function, its life has one shape: passes one after the other, each ended before the
next begins, then the stop function once, then the end. A panic of a pass or of the stop function is a
failure like any other here.

No update is lost on the way. A loop knows the spec that was given last or has it pending, it begins
a pass with what is pending, and it does not wait on while something is. Only the stop signal comes
first: what is pending then is never run.

* `Happening` and `Course.step` — what can happen to a controller, and what that makes of it;
* `Loop.Step`, `Course.Move` — all that can come of it, told apart once;
* `passesBegun`, `passesEnded` — the passes in what a controller did;
* `Course.Orderly` — passes one after the other, and what the phase adds to them;
* `Course.lifecycle` — the life of a controller.
-/

namespace FleetControl

/-- What can happen to a controller. -/
inductive Happening (J : Type) where
  /-- It is given a spec. -/
  | update (spec : ControllerSpec J)
  | signalStop
  | disown
  /-- It runs for the first time. -/
  | start
  | endPass (now : Instant) (outcome : Except Failure Unit)
  /-- It looks whether its wait is over; `elapsed` tells whether the span is. -/
  | wake (elapsed : Bool)
  | endStop (outcome : Except Failure Unit)

/-- What a controller does. -/
inductive LoopEvent (J : Type) where
  | passBegun (spec : ControllerSpec J)
  | passEnded (spec : ControllerSpec J) (outcome : Except Failure Unit)
  | stopBegun (spec : ControllerSpec J)
  | stopEnded (spec : ControllerSpec J) (outcome : Except Failure Unit)
  | terminated

variable {J : Type}

/-- The loop after something has happened, if that can happen where it stands. -/
def Loop.happen? (l : Loop J) : Happening J → Option (Loop J)
  | .update spec => some (l.update spec)
  | .signalStop => some l.signalStop
  | .disown => some l.disown
  | .start => if l.phase = .fresh then some l.start else none
  | .endPass now outcome => if l.phase = .passing then some (l.endPass now outcome) else none
  | .wake elapsed =>
    match l.phase with
    | .waiting _ => l.wake elapsed
    | _ => none
  | .endStop _ => if l.phase = .stopping then some l.endStop else none

/-- It comes of the controller itself. -/
def Happening.Own : Happening J → Prop
  | .start | .endPass _ _ | .wake _ | .endStop _ => True
  | .update _ | .signalStop | .disown => False

/-! ## Steps of a loop -/

namespace Loop

/-- **A loop that goes on after a wait** begins its stop function, if it was given the stop signal or
has lost its owner, or a pass. -/
theorem wake_cases {l l' : Loop J} {elapsed : Bool} (h : l.wake elapsed = some l') :
    (l' = { l with phase := .stopping } ∧ (l.stopSignal = true ∨ l.disowned = true)) ∨
      (l' = l.beginPass ∧ l.stopSignal = false) := by
  unfold wake at h
  split at h
  · next hstop =>
    cases h
    exact .inl ⟨rfl, .inl hstop⟩
  · next hstop =>
    have hgoes : l.stopSignal = false := by simpa using hstop
    split at h
    · cases h
      exact .inr ⟨rfl, hgoes⟩
    · split at h
      · next hlost =>
        cases h
        exact .inl ⟨rfl, .inr hlost⟩
      · split at h <;> cases h
        exact .inr ⟨rfl, hgoes⟩

/-- What can become of a loop when something happens to it. -/
inductive Step (l : Loop J) : Happening J → Loop J → Prop where
  | update (spec : ControllerSpec J) : Step l (.update spec) (l.update spec)
  | signalStop : Step l .signalStop l.signalStop
  | disown : Step l .disown l.disown
  /-- The first pass begins. -/
  | start (fresh : l.phase = .fresh) : Step l .start l.beginPass
  /-- A pass begins after a wait. -/
  | resume {elapsed : Bool} {span : Option Span} (waiting : l.phase = .waiting span)
      (goes : l.stopSignal = false) : Step l (.wake elapsed) l.beginPass
  | endPass {now : Instant} {outcome : Except Failure Unit} (passing : l.phase = .passing) :
      Step l (.endPass now outcome) (l.endPass now outcome)
  | beginStop {elapsed : Bool} {span : Option Span} (waiting : l.phase = .waiting span)
      (why : l.stopSignal = true ∨ l.disowned = true) :
      Step l (.wake elapsed) { l with phase := .stopping }
  | endStop {outcome : Except Failure Unit} (stopping : l.phase = .stopping) :
      Step l (.endStop outcome) l.endStop

/-- **Whatever happens to a loop**, it takes one of these steps. -/
theorem step_of_happen {l l' : Loop J} {happening : Happening J}
    (h : l.happen? happening = some l') : Step l happening l' := by
  cases happening with
  | update spec =>
      cases h
      exact .update spec
  | signalStop =>
      cases h
      exact .signalStop
  | disown =>
      cases h
      exact .disown
  | start =>
      simp only [happen?] at h
      split at h
      · next fresh =>
        cases h
        exact .start fresh
      · cases h
  | endPass now outcome =>
      simp only [happen?] at h
      split at h
      · next passing =>
        cases h
        exact .endPass passing
      · cases h
  | wake elapsed =>
      simp only [happen?] at h
      split at h
      · next span waiting =>
        rcases wake_cases h with ⟨rfl, why⟩ | ⟨rfl, goes⟩
        · exact .beginStop waiting why
        · exact .resume waiting goes
      · cases h
  | endStop outcome =>
      simp only [happen?] at h
      split at h
      · next stopping =>
        cases h
        exact .endStop stopping
      · cases h

/-! ## What an update leaves as it is -/

theorem phase_update (l : Loop J) (spec : ControllerSpec J) : (l.update spec).phase = l.phase := by
  unfold update
  split <;> rfl

theorem stopSignal_update (l : Loop J) (spec : ControllerSpec J) :
    (l.update spec).stopSignal = l.stopSignal := by
  unfold update
  split <;> rfl

theorem stats_update (l : Loop J) (spec : ControllerSpec J) : (l.update spec).stats = l.stats := by
  unfold update
  split <;> rfl

end Loop

/-! ## What a controller did -/

/-- What a controller did when something happened to it. -/
def LoopEvent.of (l l' : Loop J) : Happening J → List (LoopEvent J)
  | .start => [passBegun l'.spec]
  | .wake _ => if l'.phase = .stopping then [stopBegun l'.spec] else [passBegun l'.spec]
  | .endPass _ outcome => [passEnded l.spec outcome]
  | .endStop outcome => [stopEnded l.spec outcome, terminated]
  | _ => []

/-- The course of a controller so far. -/
structure Course (J : Type) where
  loop : Loop J
  /-- The spec that was given last. -/
  given : ControllerSpec J
  trace : List (LoopEvent J)

/-- A pass that has ended. -/
structure EndedPass (J : Type) where
  spec : ControllerSpec J
  outcome : Except Failure Unit

/-- What a controller did in a pass. -/
def EndedPass.events (p : EndedPass J) : List (LoopEvent J) :=
  [.passBegun p.spec, .passEnded p.spec p.outcome]

namespace Course

/-- A new controller. -/
def new (name kind : String) (spec : ControllerSpec J) : Course J :=
  ⟨.new name kind spec, spec, []⟩

/-- The course after something happened. What cannot happen does not. -/
def step (c : Course J) (h : Happening J) : Course J :=
  match c.loop.happen? h with
  | none => c
  | some loop =>
    { loop
      given := match h with | .update spec => spec | _ => c.given
      trace := c.trace ++ LoopEvent.of c.loop loop h }

/-- The course after some happenings. -/
def after (c : Course J) (happenings : List (Happening J)) : Course J := happenings.foldl step c

/-- What can become of a course when something happens. -/
inductive Move (c : Course J) : Happening J → Course J → Prop where
  /-- It cannot happen where the controller stands. -/
  | idle {happening : Happening J} : Move c happening c
  | update (spec : ControllerSpec J) :
    Move c (.update spec) { c with loop := c.loop.update spec, given := spec }
  | signalStop : Move c .signalStop { c with loop := c.loop.signalStop }
  | disown : Move c .disown { c with loop := c.loop.disown }
  /-- A pass begins: the first one, or the one after a wait. -/
  | begin {happening : Happening J}
    (ready : c.loop.phase = .fresh ∨
      (∃ span, c.loop.phase = .waiting span) ∧ c.loop.stopSignal = false) :
    Move c happening { c with
      loop := c.loop.beginPass
      trace := c.trace ++ [.passBegun c.loop.beginPass.spec] }
  | endPass {now : Instant} {outcome : Except Failure Unit} (passing : c.loop.phase = .passing) :
    Move c (.endPass now outcome) { c with
      loop := c.loop.endPass now outcome
      trace := c.trace ++ [.passEnded c.loop.spec outcome] }
  | beginStop {happening : Happening J} {span : Option Span}
    (waiting : c.loop.phase = .waiting span) :
    Move c happening { c with
      loop := { c.loop with phase := .stopping }
      trace := c.trace ++ [.stopBegun c.loop.spec] }
  | endStop {outcome : Except Failure Unit} (stopping : c.loop.phase = .stopping) :
    Move c (.endStop outcome) { c with
      loop := c.loop.endStop
      trace := c.trace ++ [.stopEnded c.loop.spec outcome, .terminated] }

/-- **Whatever happens**, one of these becomes of the course. -/
theorem move (c : Course J) (happening : Happening J) : Move c happening (c.step happening) := by
  unfold step
  cases hhappens : c.loop.happen? happening with
  | none => exact .idle
  | some loop =>
      cases Loop.step_of_happen hhappens with
      | update spec => simpa [LoopEvent.of] using Move.update spec
      | signalStop => simpa [LoopEvent.of] using Move.signalStop
      | disown => simpa [LoopEvent.of] using Move.disown
      | start fresh => exact .begin (.inl fresh)
      | resume waiting goes => exact .begin (.inr ⟨⟨_, waiting⟩, goes⟩)
      | endPass passing => exact .endPass passing
      | beginStop waiting => exact .beginStop waiting
      | endStop stopping => exact .endStop stopping

/-- A course goes on from where it is after the first that happens. -/
theorem after_cons (c : Course J) (happening : Happening J) (rest : List (Happening J)) :
    c.after (happening :: rest) = (c.step happening).after rest := rfl

end Course

/-! ## Passes -/

/-- The spec of the pass that begins, if one does. -/
def LoopEvent.begun? : LoopEvent J → Option (ControllerSpec J)
  | passBegun spec => some spec
  | _ => none

/-- The pass that ends, if one does. -/
def LoopEvent.ended? : LoopEvent J → Option (EndedPass J)
  | passEnded spec outcome => some ⟨spec, outcome⟩
  | _ => none

/-- The specs of the passes that were begun, in their order. -/
def passesBegun (trace : List (LoopEvent J)) : List (ControllerSpec J) :=
  trace.filterMap LoopEvent.begun?

/-- The passes that have ended, in their order. -/
def passesEnded (trace : List (LoopEvent J)) : List (EndedPass J) :=
  trace.filterMap LoopEvent.ended?

theorem passesBegun_append (trace more : List (LoopEvent J)) :
    passesBegun (trace ++ more) = passesBegun trace ++ passesBegun more := List.filterMap_append

theorem passesEnded_append (trace more : List (LoopEvent J)) :
    passesEnded (trace ++ more) = passesEnded trace ++ passesEnded more := List.filterMap_append

namespace Course

/-! ## Order -/

/-- What a phase adds to the passes that have ended. -/
inductive Rest (spec : ControllerSpec J) : Phase → List (LoopEvent J) → Prop where
  | fresh : Rest spec .fresh []
  | passing : Rest spec .passing [.passBegun spec]
  | waiting (span : Option Span) : Rest spec (.waiting span) []
  | stopping : Rest spec .stopping [.stopBegun spec]
  | ended (outcome : Except Failure Unit) :
    Rest spec .ended [.stopBegun spec, .stopEnded spec outcome, .terminated]

/-- Passes have ended one after the other, and the rest is what the phase adds to them. -/
structure Orderly (c : Course J) (passes : List (EndedPass J)) : Prop where
  trace : ∃ rest, Rest c.loop.spec c.loop.phase rest ∧
    c.trace = passes.flatMap EndedPass.events ++ rest
  /-- The spec that was given last is pending, or it is that of the loop. -/
  given : c.loop.pending.getD c.loop.spec = c.given
  unstarted : c.loop.phase = .fresh → passes = [] ∧ c.loop.pending = none
  /-- Between passes and after them the loop has the spec of the last one. -/
  last : c.loop.phase ≠ .fresh → c.loop.phase ≠ .passing →
    passes.getLast?.map EndedPass.spec = some c.loop.spec

variable {c : Course J} {passes : List (EndedPass J)}

theorem orderly_new (name kind : String) (spec : ControllerSpec J) :
    (new name kind spec).Orderly [] :=
  ⟨⟨[], .fresh, rfl⟩, rfl, fun _ => ⟨rfl, rfl⟩, fun hfresh => absurd rfl hfresh⟩

namespace Orderly

/-- What is noted without a change of spec or phase. -/
theorem noted (h : c.Orderly passes) {loop : Loop J} (hspec : loop.spec = c.loop.spec)
    (hpending : loop.pending = c.loop.pending) (hphase : loop.phase = c.loop.phase) :
    ({ c with loop } : Course J).Orderly passes := by
  obtain ⟨htrace, hgiven, hunstarted, hlast⟩ := h
  refine ⟨?_, ?_, ?_, ?_⟩ <;> simpa only [hspec, hpending, hphase]

/-- **An update** is known at once or pending. -/
theorem update (h : c.Orderly passes) (spec : ControllerSpec J) :
    ({ c with loop := c.loop.update spec, given := spec } : Course J).Orderly passes := by
  unfold Loop.update
  split
  · next hfresh =>
    obtain ⟨hpasses, hpending⟩ := h.unstarted hfresh
    obtain ⟨rest, hrest, htrace⟩ := h.trace
    rw [hfresh] at hrest
    cases hrest
    refine ⟨⟨[], ?_, htrace⟩, ?_, fun _ => ⟨hpasses, hpending⟩, fun hne => absurd hfresh hne⟩
    · rw [hfresh]
      exact .fresh
    · simp only [hpending, Option.getD_none]
  · next hrun => exact ⟨h.trace, rfl, fun hfresh => absurd hfresh hrun, h.last⟩

/-- **A pass begins** with the spec that was given last, after those that have ended. -/
theorem begin (h : c.Orderly passes) (hrest : Rest c.loop.spec c.loop.phase []) :
    ({ c with
      loop := c.loop.beginPass
      trace := c.trace ++ [.passBegun c.loop.beginPass.spec] } : Course J).Orderly passes := by
  have htrace : c.trace = passes.flatMap EndedPass.events := by
    obtain ⟨rest, hphase, htrace⟩ := h.trace
    -- The phases that add nothing are told by that.
    generalize c.loop.phase = phase at hrest hphase
    cases hrest <;> cases hphase <;> simpa using htrace
  refine ⟨⟨_, .passing, by rw [htrace]⟩, h.given, fun hfresh => ?_, fun _ hpassing => ?_⟩
  · cases hfresh
  · exact absurd rfl hpassing

/-- **A pass ends**, and the loop waits. -/
theorem endPass (h : c.Orderly passes) (hphase : c.loop.phase = .passing) (now : Instant)
    (outcome : Except Failure Unit) :
    ({ c with
      loop := c.loop.endPass now outcome
      trace := c.trace ++ [.passEnded c.loop.spec outcome] } : Course J).Orderly
        (passes ++ [⟨c.loop.spec, outcome⟩]) := by
  obtain ⟨rest, hrest, htrace⟩ := h.trace
  rw [hphase] at hrest
  cases hrest
  refine ⟨⟨[], .waiting _, ?_⟩, h.given, fun hfresh => ?_, fun _ _ => ?_⟩
  · rw [htrace]
    simp [EndedPass.events]
  · cases hfresh
  · rw [List.getLast?_concat]
    rfl

/-- **The stop function begins**, with the spec of the last pass. -/
theorem beginStop (h : c.Orderly passes) {span : Option Span} (hphase : c.loop.phase = .waiting span) :
    ({ c with
      loop := { c.loop with phase := .stopping }
      trace := c.trace ++ [.stopBegun c.loop.spec] } : Course J).Orderly passes := by
  obtain ⟨rest, hrest, htrace⟩ := h.trace
  rw [hphase] at hrest
  cases hrest
  refine ⟨⟨_, .stopping, by rw [htrace, List.append_nil]⟩, h.given, fun hfresh => ?_, fun _ _ => ?_⟩
  · cases hfresh
  · exact h.last (by simp [hphase]) (by simp [hphase])

/-- **The stop function ends**, and that is the end. -/
theorem endStop (h : c.Orderly passes) (hphase : c.loop.phase = .stopping)
    (outcome : Except Failure Unit) :
    ({ c with
      loop := c.loop.endStop
      trace := c.trace ++ [.stopEnded c.loop.spec outcome, .terminated] } : Course J).Orderly
        passes := by
  obtain ⟨rest, hrest, htrace⟩ := h.trace
  rw [hphase] at hrest
  cases hrest
  refine ⟨⟨_, .ended outcome, by simp [htrace, Loop.endStop]⟩, h.given, fun hfresh => ?_,
    fun _ _ => ?_⟩
  · cases hfresh
  · exact h.last (by simp [hphase]) (by simp [hphase])

/-- **Whatever happens**, passes stay in order. -/
theorem step (h : c.Orderly passes) (happening : Happening J) :
    ∃ passes, (c.step happening).Orderly passes := by
  have hmove := c.move happening
  generalize c.step happening = c' at hmove
  cases hmove with
  | idle => exact ⟨passes, h⟩
  | update spec => exact ⟨passes, h.update spec⟩
  | signalStop => exact ⟨passes, h.noted rfl rfl rfl⟩
  | disown => exact ⟨passes, h.noted rfl rfl rfl⟩
  | begin ready =>
      refine ⟨passes, h.begin ?_⟩
      rcases ready with hfresh | ⟨⟨span, hwaiting⟩, -⟩
      · exact hfresh ▸ .fresh
      · exact hwaiting ▸ .waiting span
  | endPass passing => exact ⟨_, h.endPass passing _ _⟩
  | beginStop waiting => exact ⟨passes, h.beginStop waiting⟩
  | endStop stopping => exact ⟨passes, h.endStop stopping _⟩

/-- Passes stay in order however the life goes on. -/
theorem after (h : c.Orderly passes) (happenings : List (Happening J)) :
    ∃ passes, (c.after happenings).Orderly passes := by
  unfold Course.after
  induction happenings generalizing c passes with
  | nil => exact ⟨passes, h⟩
  | cons happening rest ih =>
      obtain ⟨_, hnext⟩ := h.step happening
      exact ih hnext

end Orderly

/-- **The life of a controller.** Whatever happens to it in whatever order, it has ended passes one
after the other, none begun before the one before had ended, and what it did besides is told by where
it stands: a pass or its stop function is under way, or it has ended, or nothing. While it waits and
no spec is pending, the last pass had the spec that was given last. Once it has ended, there were
passes, then its stop function ran once, with the spec of the last of them, then it had terminated,
once, and nothing came after. -/
theorem lifecycle (name kind : String) (spec : ControllerSpec J) (happenings : List (Happening J)) :
    let c := (new name kind spec).after happenings
    ∃ passes : List (EndedPass J),
      (∃ rest, Rest c.loop.spec c.loop.phase rest ∧
        c.trace = passes.flatMap EndedPass.events ++ rest) ∧
      (∀ span, c.loop.phase = .waiting span → c.loop.pending = none →
        ∃ earlier outcome, passes = earlier ++ [⟨c.given, outcome⟩]) ∧
      (c.loop.phase = .ended → ∃ earlier last outcome, passes = earlier ++ [last] ∧
        c.trace = passes.flatMap EndedPass.events ++
          [.stopBegun last.spec, .stopEnded last.spec outcome, .terminated]) := by
  intro c
  obtain ⟨passes, h⟩ := (orderly_new name kind spec).after happenings
  have hlast : c.loop.phase ≠ .fresh → c.loop.phase ≠ .passing →
      ∃ earlier outcome, passes = earlier ++ [⟨c.loop.spec, outcome⟩] := by
    intro hfresh hpassing
    obtain ⟨last, hget, hspec⟩ := Option.map_eq_some_iff.1 (h.last hfresh hpassing)
    obtain ⟨earlier, rfl⟩ := List.getLast?_eq_some_iff.1 hget
    exact ⟨earlier, last.outcome, hspec ▸ rfl⟩
  refine ⟨passes, h.trace, fun span hwaiting hseen => ?_, fun hended => ?_⟩
  · have hgiven : c.loop.spec = c.given := by
      have hgiven := h.given
      rwa [hseen] at hgiven
    rw [← hgiven]
    exact hlast (by simp [hwaiting]) (by simp [hwaiting])
  · obtain ⟨earlier, outcome, hpasses⟩ := hlast (by simp [hended]) (by simp [hended])
    obtain ⟨rest, hrest, htrace⟩ := h.trace
    rw [hended] at hrest
    cases hrest with
    | ended stopped => exact ⟨earlier, ⟨c.loop.spec, outcome⟩, stopped, hpasses, htrace⟩

/-- A controller is given other specs before its first pass and during it, fails, and is stopped while
yet another spec is pending. -/
theorem lifecycle_of_stopped :
    let job (n : Nat) : ControllerSpec Nat := .once n
    let c := (new "a" "b" (job 0)).after [.update (job 1), .start, .update (job 2), .update (job 3),
      .endPass default (.error (.ofText "late")), .wake false, .endPass default (.ok ()), .wake false,
      .update (job 4), .signalStop, .wake false, .endStop (.ok ()), .update (job 5)]
    c.trace.length = 7 ∧ ∃ passes earlier last outcome, passes = earlier ++ [last] ∧
      c.trace = passes.flatMap EndedPass.events ++
        [.stopBegun last.spec, .stopEnded last.spec outcome, .terminated] := by
  intro job c
  have hrun : c.loop.phase = .ended ∧ c.trace.length = 7 := by decide +kernel
  obtain ⟨passes, -, -, hend⟩ := lifecycle "a" "b" (job 0) _
  obtain ⟨earlier, last, outcome, hpasses, htrace⟩ := hend hrun.1
  exact ⟨hrun.2, passes, earlier, last, outcome, hpasses, htrace⟩

end Course

/-- **No update is waited out**: a loop that waits with a spec pending goes on at the next look, with
that spec unless the stop signal was given. -/
theorem Loop.wake_of_pending {l : Loop J} {spec : ControllerSpec J} (h : l.pending = some spec)
    (elapsed : Bool) :
    l.wake elapsed = some (if l.stopSignal then { l with phase := .stopping }
      else { l with spec, pending := none, phase := .passing }) := by
  unfold wake beginPass
  cases l.stopSignal <;> simp [h]

end FleetControl
