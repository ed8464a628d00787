import FleetControl.Proofs.Controller.Lifecycle

/-!
# After the stop signal

A controller looks for the stop signal where a wait ends, before it looks for anything else. So a
controller that waits goes on to its stop function, whatever came together with the signal, and one
that is in a pass ends that pass first. But it does not look before its first pass: a controller that
is given the signal before it has run begins a pass all the same, and only then stops.

So what a controller with the signal has left to do is told by where it stands, and each of its steps
takes from that what it does.

* `Phase.passesToBegin`, `Phase.passesToEnd` — what is left to do;
* `Course.Winds` — what was left has been done, or is still left;
* `Course.passes_after_stop` — the passes that begin and end after the signal;
* `Course.pass_begun_after_stop` — a controller that is stopped before it has run, and runs.
-/

namespace FleetControl

/-- How many passes a controller with the stop signal still begins if it goes on. -/
def Phase.passesToBegin : Phase → Nat
  | .fresh => 1
  | _ => 0

/-- How many passes a controller with the stop signal still ends if it goes on. -/
def Phase.passesToEnd : Phase → Nat
  | .fresh | .passing => 1
  | _ => 0

theorem Phase.passesToBegin_le (p : Phase) : p.passesToBegin ≤ 1 := by
  cases p <;> simp [passesToBegin]

theorem Phase.passesToEnd_le (p : Phase) : p.passesToEnd ≤ 1 := by
  cases p <;> simp [passesToEnd]

theorem Phase.passesToBegin_eq_zero_iff (p : Phase) : p.passesToBegin = 0 ↔ p ≠ .fresh := by
  cases p <;> simp [passesToBegin]

theorem Phase.passesToEnd_eq_zero_iff (p : Phase) :
    p.passesToEnd = 0 ↔ ¬ (p = .passing ∨ p = .fresh) := by
  cases p <;> simp [passesToEnd]

variable {J : Type}

namespace Course

variable {c c' c'' : Course J} {happening : Happening J} {more more' : List (LoopEvent J)}

/-- A controller that has the stop signal went on, and did this. -/
structure Winds (c c' : Course J) (more : List (LoopEvent J)) : Prop where
  stopped : c'.loop.stopSignal = true
  trace : c'.trace = c.trace ++ more
  begun : (passesBegun more).length + c'.loop.phase.passesToBegin = c.loop.phase.passesToBegin
  ended : (passesEnded more).length + c'.loop.phase.passesToEnd = c.loop.phase.passesToEnd

namespace Winds

/-- Where nothing is done the controller stands where it stood. -/
theorem noted (hstop : c'.loop.stopSignal = true) (htrace : c'.trace = c.trace)
    (hphase : c'.loop.phase = c.loop.phase) : Winds c c' [] :=
  ⟨hstop, by rw [htrace, List.append_nil], by simp [hphase, passesBegun],
    by simp [hphase, passesEnded]⟩

theorem trans (h : Winds c c' more) (h' : Winds c' c'' more') : Winds c c'' (more ++ more') := by
  obtain ⟨-, htrace, hbegun, hended⟩ := h
  obtain ⟨hstop, htrace', hbegun', hended'⟩ := h'
  refine ⟨hstop, by rw [htrace', htrace, List.append_assoc], ?_, ?_⟩
  · rw [passesBegun_append, List.length_append]
    omega
  · rw [passesEnded_append, List.length_append]
    omega

/-- **A pass is begun** exactly if the controller had not run, and has run since. -/
theorem passesBegun_ne_nil_iff (h : Winds c c' more) :
    passesBegun more ≠ [] ↔ c.loop.phase = .fresh ∧ c'.loop.phase ≠ .fresh := by
  have hbegun := h.begun
  have hsome := c.loop.phase.passesToBegin_eq_zero_iff
  have hkept := c'.loop.phase.passesToBegin_eq_zero_iff
  rw [← List.length_pos_iff]
  constructor
  · intro hpos
    have hwas : c.loop.phase = .fresh := Decidable.byContradiction fun hran => by
      have hnone := hsome.2 hran
      omega
    have hle := c.loop.phase.passesToBegin_le
    exact ⟨hwas, hkept.1 (by omega)⟩
  · rintro ⟨hwas, hran⟩
    have hnone := hkept.2 hran
    have hone := mt hsome.1 fun hnot => hnot hwas
    omega

/-- **A pass ends** only if it was under way, or the controller had not run. -/
theorem passing_or_fresh (h : Winds c c' more) (hsome : passesEnded more ≠ []) :
    c.loop.phase = .passing ∨ c.loop.phase = .fresh := by
  refine Decidable.byContradiction fun hunder => ?_
  have hended := h.ended
  have hnone := c.loop.phase.passesToEnd_eq_zero_iff.2 hunder
  exact hsome (List.eq_nil_of_length_eq_zero (by omega))

theorem length_passesBegun_le (h : Winds c c' more) : (passesBegun more).length ≤ 1 := by
  have hbegun := h.begun
  have hle := c.loop.phase.passesToBegin_le
  omega

theorem length_passesEnded_le (h : Winds c c' more) : (passesEnded more).length ≤ 1 := by
  have hended := h.ended
  have hle := c.loop.phase.passesToEnd_le
  omega

end Winds

/-- **A step of a controller that has the stop signal** does part of what was left. -/
theorem Move.winds (h : Move c happening c') (hstop : c.loop.stopSignal = true) :
    ∃ more, Winds c c' more := by
  cases h with
  | idle => exact ⟨[], .noted hstop rfl rfl⟩
  | update spec =>
      exact ⟨[], .noted (by rw [Loop.stopSignal_update, hstop]) rfl (Loop.phase_update _ _)⟩
  | signalStop => exact ⟨[], .noted rfl rfl rfl⟩
  | disown => exact ⟨[], .noted hstop rfl rfl⟩
  | begin ready =>
      -- After a wait the signal is seen, so this is the first pass.
      have hfresh : c.loop.phase = .fresh := by
        rcases ready with hfresh | ⟨-, hgoes⟩
        · exact hfresh
        · rw [hstop] at hgoes
          cases hgoes
      refine ⟨_, hstop, rfl, ?_, ?_⟩ <;> rw [hfresh] <;> rfl
  | endPass passing => refine ⟨_, hstop, rfl, ?_, ?_⟩ <;> rw [passing] <;> rfl
  | beginStop waiting => refine ⟨_, hstop, rfl, ?_, ?_⟩ <;> rw [waiting] <;> rfl
  | endStop stopping => refine ⟨_, hstop, rfl, ?_, ?_⟩ <;> rw [stopping] <;> rfl

/-- **Whatever happens to a controller that has the stop signal**, it does no more than was left. -/
theorem winds_after (hstop : c.loop.stopSignal = true) (happenings : List (Happening J)) :
    ∃ more, Winds c (c.after happenings) more := by
  induction happenings generalizing c with
  | nil => exact ⟨[], .noted hstop rfl rfl⟩
  | cons happening rest ih =>
      obtain ⟨more, hmore⟩ := (c.move happening).winds hstop
      obtain ⟨more', hmore'⟩ := ih hmore.stopped
      exact ⟨more ++ more', hmore.trans hmore'⟩

/-! ## Controllers that have not run -/

/-- A controller that has not run yet runs when it is started. -/
theorem fresh_step_iff (c : Course J) (happening : Happening J) :
    (c.step happening).loop.phase = .fresh ↔ c.loop.phase = .fresh ∧ .start ≠ happening := by
  constructor
  · intro hafter
    have hfresh : c.loop.phase = .fresh := by
      have hmove := c.move happening
      generalize c.step happening = c' at hmove hafter
      cases hmove with
      | idle => exact hafter
      | update spec => rwa [Loop.phase_update] at hafter
      | signalStop => exact hafter
      | disown => exact hafter
      | begin | endPass | beginStop | endStop => cases hafter
    refine ⟨hfresh, ?_⟩
    rintro rfl
    simp [step, Loop.happen?, hfresh, Loop.start, Loop.beginPass] at hafter
  · rintro ⟨hfresh, hstart⟩
    cases happening with
    | start => exact absurd rfl hstart
    | update spec => exact (Loop.phase_update _ _).trans hfresh
    | signalStop => exact hfresh
    | disown => exact hfresh
    | endPass | wake | endStop => simp [step, Loop.happen?, hfresh]

theorem fresh_after_iff (c : Course J) (happenings : List (Happening J)) :
    (c.after happenings).loop.phase = .fresh ↔ c.loop.phase = .fresh ∧ .start ∉ happenings := by
  induction happenings generalizing c with
  | nil => simp [after]
  | cons happening rest ih =>
      rw [after_cons, ih, fresh_step_iff, List.mem_cons, not_or, and_assoc]

/-! ## Passes after the signal -/

/-- **The passes after the stop signal.** Take any controller, whatever has happened to it when it is
given the stop signal, and whatever happens later. It begins a pass after the signal exactly if it had
not run when the signal came and is started later, and then it begins that first pass only. A pass
that ends after the signal was under way when it came, or is that first pass. -/
theorem passes_after_stop (name kind : String) (spec : ControllerSpec J)
    (earlier later : List (Happening J)) :
    let c := (new name kind spec).after earlier
    ∃ more, ((c.step .signalStop).after later).trace = c.trace ++ more ∧
      (passesBegun more ≠ [] ↔ c.loop.phase = .fresh ∧ .start ∈ later) ∧
      (passesBegun more).length ≤ 1 ∧
      (passesEnded more ≠ [] → c.loop.phase = .passing ∨ c.loop.phase = .fresh) ∧
      (passesEnded more).length ≤ 1 := by
  intro c
  have hsignal : c.step .signalStop = { c with loop := c.loop.signalStop } := by
    simp [step, Loop.happen?, LoopEvent.of]
  obtain ⟨more, h⟩ := winds_after (c := c.step .signalStop) rfl later
  have hphase : (c.step .signalStop).loop.phase = c.loop.phase := rfl
  have hruns : c.loop.phase = .fresh → (((c.step .signalStop).after later).loop.phase ≠ .fresh ↔
      .start ∈ later) := by
    intro hfresh
    rw [ne_eq, fresh_after_iff, hphase, and_iff_right hfresh, Classical.not_not]
  have hbegun := h.passesBegun_ne_nil_iff
  rw [hphase, and_congr_right hruns] at hbegun
  exact ⟨more, by rw [h.trace, hsignal], hbegun, h.length_passesBegun_le, h.passing_or_fresh,
    h.length_passesEnded_le⟩

/-- A controller is in its second pass when it is stopped, after an update and before another one. The
pass ends, and neither the updates nor the end of the span begin one more. -/
theorem no_pass_begun_after_stop :
    let job (n : Nat) : ControllerSpec Nat := .once n
    let earlier := [.start, .update (job 1), .endPass default (.error (.ofText "late")), .wake true,
      .update (job 2)]
    let later := [.update (job 3), .endPass default (.error (.ofText "late")), .wake true, .start,
      .endStop (.ok ())]
    let c := (new "a" "b" (job 0)).after earlier
    c.loop.phase = .passing ∧ ∃ more,
      ((c.step .signalStop).after later).trace = c.trace ++ more ∧ passesBegun more = [] ∧
        (passesEnded more).length ≤ 1 := by
  intro job earlier later c
  obtain ⟨more, htrace, hbegun, -, -, hended⟩ := passes_after_stop "a" "b" (job 0) earlier later
  have hphase : c.loop.phase = .passing := rfl
  refine ⟨hphase, more, htrace, Decidable.byContradiction fun hsome => ?_, hended⟩
  cases hphase.symm.trans (hbegun.1 hsome).1

/-- **A controller that is stopped before it has run** begins a pass when it runs. -/
theorem pass_begun_after_stop :
    let c : Course Nat := new "a" "b" (.once 0)
    (c.after [.signalStop]).trace = [] ∧ (c.after [.signalStop]).loop.stopSignal = true ∧
      (c.after [.signalStop, .start]).trace = [.passBegun (.once 0)] :=
  ⟨rfl, rfl, rfl⟩

end Course

end FleetControl
