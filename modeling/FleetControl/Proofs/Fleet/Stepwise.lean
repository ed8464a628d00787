import FleetControl.Proofs.Fleet.Told
import FleetControl.Proofs.Interleaving
import FleetControl.Proofs.Reconcile.Pass

/-!
# Actions request by request

A callback may be suspended at each of its requests while another callback proceeds. Of the requests
of an action only one matters to the agents, its call, and when the call is made its outcome is folded
into the working copy at once, because nothing else is asked in between. So an invariant that stands
idle requests and whole calls is kept up by every action, wherever the action is suspended.

* `Standing` — how far a callback is;
* `Fleet.Carries` — an invariant that stands the requests of actions;
* `Fleet.Carries.apply`, `Fleet.Carries.all` — an action, and a list of actions, keep it up.
-/

namespace FleetControl

/-- How far a callback about a workflow is. -/
inductive Standing where
  /-- It has not read the status document yet. -/
  | waiting
  /-- It carries out its actions or is about to write the document, with a working copy. -/
  | working (a : Applied)
  /-- It asks for nothing any more. -/
  | finished

/-- Every slot of a working copy names at most one agent, which is in the directory. -/
def Applied.Legible (a : Applied) (directory : KeyMap Simulation.Registration) : Prop :=
  ∀ p, (a.slot p).Legible directory

namespace Fleet

/-- An invariant about the callbacks of two parties stands the requests of the actions of one of
them. -/
structure Carries (w : String) (desired : WorkflowSpec)
    (directory : KeyMap Simulation.Registration) (turn : Turn)
    (J : Standing → List Turn → Standing → Site Fleet → Prop) : Prop where
  proper : ∀ {a past other s}, J (.working a) past other s → s.side.Proper
  directory : ∀ {a past other s}, J (.working a) past other s → s.side.directory = directory
  idle : ∀ {a past other s x}, J (.working a) past other s → x.Proper → Idle s.side x →
    J (.working a) (turn :: past) other { s with side := x }
  /-- A call moves the pipeline that it is about. -/
  moved : ∀ {a a' past other s x p spec named action}, J (.working a) past other s →
    a.needs desired p = some action → (a.slot p).Tells named → x.Proper →
    Moved s.side w p spec (a.slot p) named action (a'.slot p) x →
    (∀ q, q ≠ p → a'.slot q = a.slot q) → J (.working a') (turn :: past) other { s with side := x }

/-- The standing of a callback after the result of a call was folded in. -/
structure Folded (directory : KeyMap Simulation.Registration) (a : Applied)
    (planned : PlannedAction) (spec : PipelineSpec) (result : Scheduler.Result) (g : Standing) :
    Prop where
  standing : g = .working (a.fold planned spec result)
  legible : ((a.fold planned spec result).slot planned.pipeline).Legible directory
  dated : (a.fold planned spec result).Dated

namespace Carries

variable {w : String} {desired : WorkflowSpec} {directory : KeyMap Simulation.Registration}
variable {turn : Turn} {J : Standing → List Turn → Standing → Site Fleet → Prop}

/-! ## Requests -/

/-- A request that no agent is called with. -/
theorem request (h : Carries w desired directory turn J) (r : Request) (hr : r.remote = true)
    (hidle : ∀ x, Idle x (side.answer r x).2) {post : r.Reply → Standing → Prop} {a : Applied}
    (hpost : ∀ (x : Fleet) reply, x.directory = directory → (side.answer r x).1 = reply →
      post reply (.working a)) :
    (Control.ask r).Keeps (Site.answer side) turn J post (.working a) := by
  intro past other s reply s' hJ hreply
  rw [Site.answer_remote side hr] at hreply
  cases hreply
  exact ⟨.working a, h.idle hJ (side.proper r s.side (h.proper hJ)) (hidle s.side),
    hpost s.side _ (h.directory hJ) rfl⟩

/-- A call, and what is made of its reply. -/
theorem call (h : Carries w desired directory turn J) {a : Applied} (hdated : a.Dated) {p : String}
    {action : PipelineAction} (hneeds : a.needs desired p = some action) {named : Option String}
    (htells : (a.slot p).Tells named)
    (hknown : ∀ name, named = some name → directory.contains name = true) {name : String}
    {r : Simulation.Registration} (hr : directory.get? name = some r) {connection : Connection}
    (hid : connection.agent = r.agent) {deadline : Span} {spec : PipelineSpec}
    {result : Option (Except AgentError PipelineReport) → Scheduler.Result}
    (hmoved : ∀ {x reply x'}, x.Honest → x.directory = directory →
      Called x name action (Scheduler.request w p spec) reply x' →
        Moved x w p spec (a.slot p) named action ((a.fold ⟨p, action⟩ spec (result reply)).slot p)
          x')
    (hkept : ∀ x, x.Proper → (result (side.answer (.call connection deadline action
      (Scheduler.request w p spec)) x).1).2.Dated) :
    (Control.call connection deadline action (Scheduler.request w p spec)).Keeps
      (Site.answer side) turn J
      (fun reply g => Folded directory a ⟨p, action⟩ spec (result reply) g) (.working a) := by
  intro past other s reply s' hJ hreply
  rw [Site.answer_remote side rfl] at hreply
  cases hreply
  have hproper := h.proper hJ
  have hdirectory := h.directory hJ
  have hcalled := called hproper.honest (hdirectory ▸ hr) action (Scheduler.request w p spec)
  rw [← hid] at hcalled
  have hmove := hmoved hproper.honest hdirectory hcalled
  have hlegible := hmove.legible htells (hdirectory ▸ hknown)
  rw [hdirectory] at hlegible
  exact ⟨_, h.moved hJ hneeds htells (side.proper _ _ hproper) hmove
      fun q hq => a.slot_fold ⟨p, action⟩ spec _ hq,
    rfl, hlegible, hdated.fold ⟨p, action⟩ spec (hkept _ hproper)⟩

/-! ## Choosing an agent -/

/-- The outcome of a choice among the agents of a directory, with the executor on record. -/
def Choice (directory : KeyMap Simulation.Registration) (status : PipelineStatus) :
    Except AgentError (String × Connection) → Prop
  | .error _ => ∀ name, status.executor = some name → directory.contains name = false
  | .ok (name, connection) =>
    (∃ r, directory.get? name = some r ∧ connection.agent = r.agent) ∧
      ∀ earlier, status.executor = some earlier → directory.contains earlier = true →
        name = earlier

/-- Placement is asked if nobody on record is known. -/
theorem placeAnew (h : Carries w desired directory turn J) (v p : String) (spec : PipelineSpec)
    {status : PipelineStatus}
    (hunknown : ∀ name, status.executor = some name → directory.contains name = false)
    (a : Applied) :
    (Scheduler.placeAnew v p spec).Keeps (Site.answer side) turn J
      (fun chosen g => g = .working a ∧ Choice directory status chosen) (.working a) := by
  refine .bind (h.request .agents rfl (fun x => Idle.refl x) fun _ candidates _ _ => ?_)
  refine .bind (h.request (.place spec candidates) rfl (fun x => idle_choices x _)
    fun _ choice _ _ => ?_)
  cases choice with
  | none => exact .pure ⟨rfl, hunknown⟩
  | some agent =>
      refine .bind (h.request (.connect agent) rfl (fun x => Idle.refl x)
        fun z found hz hfound => ?_)
      cases found with
      | none => exact .pure ⟨rfl, hunknown⟩
      | some connection =>
          obtain ⟨r, hr, rfl⟩ := Option.map_eq_some_iff.1 hfound
          refine .pure ⟨rfl, ⟨r, hz ▸ hr, rfl⟩, ?_⟩
          intro earlier hearlier hcontains
          rw [hunknown earlier hearlier] at hcontains
          cases hcontains

/-- Choosing an agent calls nobody. -/
theorem chooseAgent (h : Carries w desired directory turn J) (v p : String) (spec : PipelineSpec)
    (status : PipelineStatus) (a : Applied) :
    (Scheduler.chooseAgent v p spec status).Keeps (Site.answer side) turn J
      (fun chosen g => g = .working a ∧ Choice directory status chosen) (.working a) := by
  rw [Scheduler.chooseAgent_eq]
  cases hexecutor : status.executor with
  | none =>
      refine h.placeAnew v p spec ?_ a
      intro name hname
      rw [hexecutor] at hname
      cases hname
  | some agent =>
      refine .bind (h.request (.connect agent) rfl (fun x => Idle.refl x)
        fun z found hz hfound => ?_)
      cases found with
      | none =>
          refine h.placeAnew v p spec ?_ a
          intro name hname
          rw [hexecutor] at hname
          obtain rfl := Option.some.inj hname
          rw [KeyMap.contains_eq_false_iff, ← hz]
          exact Option.map_eq_none_iff.1 hfound
      | some connection =>
          obtain ⟨r, hr, rfl⟩ := Option.map_eq_some_iff.1 hfound
          refine .pure ⟨rfl, ⟨r, hz ▸ hr, rfl⟩, ?_⟩
          intro earlier hearlier _
          rw [hexecutor] at hearlier
          exact Option.some.inj hearlier

/-! ## Actions -/

/-- A schedule keeps the invariant up. -/
theorem schedule (h : Carries w desired directory turn J) (deadline : Span) {a : Applied}
    (hdated : a.Dated) {p : String} {d : PipelineSpec}
    (hneeds : a.needs desired p = some .schedule) (hspec : a.spec.pipelines.get? p = none)
    (hlegible : (a.slot p).Legible directory) :
    (Scheduler.schedule deadline w p d (a.statusFor ⟨p, .schedule⟩)).Keeps (Site.answer side) turn J
      (fun result g => Folded directory a ⟨p, .schedule⟩ d result g) (.working a) := by
  have hslot := hlegible
  obtain ⟨named, htells, hknown⟩ := hslot
  have hexecutor := executor_of_unapplied htells hspec
  have hstatus := hdated.statusFor ⟨p, .schedule⟩
  rw [Scheduler.schedule_eq]
  refine .bind ((h.chooseAgent w p d _ _).mono ?_)
  intro chosen g hchosen
  obtain ⟨rfl, hchoice⟩ := hchosen
  cases chosen with
  | error e =>
      -- An executor on record is known, so nobody is on record and nothing is remembered.
      have hnobody : (a.statusFor ⟨p, .schedule⟩).executor = none := by
        cases hname : (a.statusFor ⟨p, .schedule⟩).executor with
        | none => rfl
        | some name =>
            have hlacks := hchoice name hname
            rw [hknown name (hexecutor.symm.trans hname)] at hlacks
            cases hlacks
      have hfold : a.fold ⟨p, .schedule⟩ d (.error e, a.statusFor ⟨p, .schedule⟩) = a := by
        simp [Applied.fold, Applied.fail, hnobody]
      refine .pure ⟨?_, ?_, ?_⟩ <;> rw [hfold]
      · exact hlegible
      · exact hdated
  | ok found =>
      obtain ⟨name, connection⟩ := found
      obtain ⟨⟨r, hr, hid⟩, hreturns⟩ := hchoice
      refine .bind (h.call hdated hneeds htells hknown hr hid ?_ fun x hx =>
        Scheduler.dated_placed side hx hstatus _ _ _ _ _)
      rintro x reply x' hx rfl hcalled
      exact (hcalled.scheduled hx (Idle.refl x) ⟨⟨r, hr, hid⟩, hreturns⟩ deadline).moved htells
        hknown hspec

/-- An update or a removal keeps the invariant up. -/
theorem consult (h : Carries w desired directory turn J) (deadline : Span) {a : Applied}
    (hdated : a.Dated) {p name : String} {action : PipelineAction} (hact : action ≠ .schedule)
    {spec : PipelineSpec} (hneeds : a.needs desired p = some action)
    (htells : (a.slot p).Tells (some name)) (hknown : directory.contains name = true) :
    (Scheduler.callExecutor deadline action w p spec (a.statusFor ⟨p, action⟩) name).Keeps
      (Site.answer side) turn J
      (fun result g => Folded directory a ⟨p, action⟩ spec result g) (.working a) := by
  have hstatus := hdated.statusFor ⟨p, action⟩
  have hnamed : ∀ other, some name = some other → directory.contains other = true := by
    intro other hother
    obtain rfl := Option.some.inj hother
    exact hknown
  rw [Scheduler.callExecutor_eq]
  refine .bind (h.request (.connect name) rfl (fun x => Idle.refl x) fun z found hz hfound => ?_)
  obtain ⟨r, hr⟩ := (KeyMap.contains_iff _ _).1 hknown
  obtain rfl : some ⟨r.agent⟩ = found := by
    rw [← hfound]
    simp [side, answer, hz, hr]
  refine .bind (h.call hdated hneeds htells hnamed hr rfl ?_ fun x hx =>
    Scheduler.dated_concluded side hx hstatus _ _ _ _ _)
  rintro x reply x' hx rfl hcalled
  exact (hcalled.consulted hx hr _ deadline).moved hact

/-- **An action keeps the invariant up** wherever it is suspended. -/
theorem apply (h : Carries w desired directory turn J) (deadline : Span) {a : Applied}
    {planned : PlannedAction} (hneeds : a.needs desired planned.pipeline = some planned.action)
    (hlegible : a.Legible directory) (hdated : a.Dated) :
    (a.apply deadline w desired planned).Keeps (Site.answer side) turn J
      (fun r g => g = .working r.2 ∧ Applied.Effect desired planned a r.1 r.2 ∧
        r.2.Legible directory ∧ r.2.Dated) (.working a) := by
  obtain ⟨named, htells, hknown⟩ := hlegible planned.pipeline
  obtain ⟨spec, hfor, hkind⟩ := kind_of_needs hneeds htells
  obtain ⟨p, action⟩ := planned
  have hcall : (Scheduler.dispatch deadline action w p spec (a.statusFor ⟨p, action⟩)).Keeps
      (Site.answer side) turn J (fun result g => Folded directory a ⟨p, action⟩ spec result g)
      (.working a) := by
    rcases hkind with ⟨rfl, hspec⟩ | ⟨hact, name, rfl, hexecutor⟩
    · exact h.schedule deadline hdated hneeds hspec (hlegible p)
    · rw [Scheduler.dispatch_of_executor deadline hact w p spec hexecutor]
      exact h.consult deadline hdated hact hneeds htells (hknown name rfl)
  unfold Applied.apply
  rw [hfor]
  refine .bind (hcall.mono fun result g hfolded => .pure ?_)
  have heffect := Applied.effect_fold desired hfor result
  refine ⟨hfolded.standing, heffect, fun q => ?_, hfolded.dated⟩
  by_cases hq : q = p
  · rw [hq]
    exact hfolded.legible
  · rw [heffect.others q hq]
    exact hlegible q

/-- **A list of actions keeps the invariant up** wherever it is suspended. -/
theorem all (h : Carries w desired directory turn J) (deadline : Span)
    {actions : List PlannedAction} (hnodup : (actions.map (·.pipeline)).Nodup) {a : Applied}
    (hneeds : ∀ planned ∈ actions, a.needs desired planned.pipeline = some planned.action)
    (hlegible : a.Legible directory) (hdated : a.Dated) :
    (Attempt.all deadline w desired actions a).Keeps (Site.answer side) turn J
      (fun attempt g => g = .working attempt.state ∧ Attempt.Outcome desired actions a attempt ∧
        attempt.state.Legible directory ∧ attempt.state.Dated) (.working a) := by
  induction actions generalizing a with
  | nil => exact .pure ⟨rfl, .nil desired a, hlegible, hdated⟩
  | cons planned rest ih =>
      obtain ⟨hfresh, hrest⟩ := List.nodup_cons.1 hnodup
      have hothers : ∀ other ∈ rest, other.pipeline ≠ planned.pipeline := by
        intro other hother heq
        exact hfresh (List.mem_map.2 ⟨other, hother, heq⟩)
      refine .bind ((h.apply deadline (hneeds planned (by simp)) hlegible hdated).mono ?_)
      rintro ⟨outcome, a'⟩ g ⟨rfl, heffect, hlegible', hdated'⟩
      -- The action changed nothing about the pipelines whose turn comes later.
      have hlater : ∀ other ∈ rest, a'.needs desired other.pipeline = some other.action := by
        intro other hother
        rw [Applied.needs_congr desired (heffect.others _ (hothers other hother))]
        exact hneeds other (by simp [hother])
      refine .bind ((ih hrest hlater hlegible' hdated').mono ?_)
      rintro attempt g ⟨rfl, houtcome, hdone⟩
      have hstate : (attempt.cons planned outcome).state = attempt.state := by
        cases outcome <;> rfl
      refine .pure ⟨by rw [hstate], .cons hothers heffect houtcome, ?_⟩
      rw [hstate]
      exact hdone

end Carries

end Fleet

end FleetControl
