import FleetControl.Proofs.Fleet.Dispatch
import FleetControl.Proofs.Status
import FleetControl.Proofs.Workflow.Fingerprint
import FleetControl.Proofs.Workflow.Resolved

/-!
# What a working copy tells about a fleet

For every pipeline the working copy is in one of three states: it knows nothing, it has the pipeline
with the executor that runs it, or it has the pipeline unconfirmed with the executor that was asked.
Agents that hold a pipeline are those that are named, and an executor on record holds what the last
call that was carried out left with it. Each action keeps this up, whatever becomes of its call.

* `Slot.Tells` — the three states;
* `Fleet.Told` — what they tell about a fleet;
* `Fleet.Moved` and `Fleet.moved` — what an action does to a working copy and a fleet;
* `Fleet.Faithful.all` — a list of actions keeps a working copy faithful;
* `Fleet.Faithful.reread` — and so does writing it down.
-/

namespace FleetControl

/-! ## What is told -/

/-- A slot names at most one agent. -/
inductive Slot.Tells : Slot → Option String → Prop where
  | nothing : Tells ⟨none, none, none⟩ none
  | applied {d : PipelineSpec} {status : PipelineStatus} {name : String}
      (executor : status.executor = some name) : Tells ⟨some d, some status, none⟩ (some name)
  | unconfirmed {u : UnconfirmedPipeline} {name : String}
      (executor : u.status.executor = some name) : Tells ⟨none, none, some u⟩ (some name)

theorem Slot.Tells.of_some {slot : Slot} {named : Option String} (h : slot.Tells named)
    {d : PipelineSpec} (hspec : slot.spec = some d) :
    ∃ status name, slot.status = some status ∧ status.executor = some name ∧ named = some name := by
  cases h with
  | nothing => cases hspec
  | applied executor => exact ⟨_, _, rfl, executor, rfl⟩
  | unconfirmed executor => cases hspec

theorem Slot.Tells.of_none {slot : Slot} {named : Option String} (h : slot.Tells named)
    (hspec : slot.spec = none) :
    slot.status = none ∧ ((slot.unconfirmed = none ∧ named = none) ∨
      ∃ u name, slot.unconfirmed = some u ∧ u.status.executor = some name ∧ named = some name) := by
  cases h with
  | nothing => exact ⟨rfl, .inl ⟨rfl, rfl⟩⟩
  | applied executor => cases hspec
  | unconfirmed executor => exact ⟨rfl, .inr ⟨_, _, rfl, executor, rfl⟩⟩

/-- A slot names one agent or none. -/
theorem Slot.Tells.unique {slot : Slot} {named other : Option String} (h : slot.Tells named)
    (h' : slot.Tells other) : named = other := by
  cases h with
  | nothing =>
      cases h'
      rfl
  | applied executor =>
      obtain ⟨status, name, hstatus, hexecutor, rfl⟩ := h'.of_some rfl
      obtain rfl := Option.some.inj hstatus
      exact executor.symm.trans hexecutor
  | unconfirmed executor =>
      obtain ⟨-, ⟨hnone, -⟩ | ⟨u, name, hu, hexecutor, rfl⟩⟩ := h'.of_none rfl
      · cases hnone
      · obtain rfl := Option.some.inj hu
        exact executor.symm.trans hexecutor

/-- A slot of a document that is read back tells what the working copy told. -/
theorem Slot.Tells.reread {a : Applied} {p : String} {named : Option String}
    (h : (a.slot p).Tells named) (t : Option Instant) :
    ((Applied.ofStatus (a.toStatus t)).slot p).Tells named := by
  have hslot : (Applied.ofStatus (a.toStatus t)).slot p =
      ⟨a.spec.resolved.pipelines.get? p,
        ((a.slot p).status).filter fun _ => a.spec.pipelines.contains p,
        ((a.slot p).unconfirmed).filter fun u =>
          !a.spec.pipelines.contains p && u.status.executor.isSome⟩ := by
    simp only [Applied.slot, Applied.ofStatus, Applied.toStatus, WorkflowStatus.ofParts,
      KeyMap.get?_filter]
  rw [hslot, WorkflowSpec.get?_resolved]
  simp only [KeyMap.contains]
  simp only [Applied.slot] at h ⊢
  generalize a.spec.pipelines.get? p = spec at *
  generalize a.pipelines.get? p = status at *
  generalize a.unconfirmed.get? p = u at *
  cases h with
  | nothing => exact .nothing
  | applied executor => exact .applied executor
  | @unconfirmed u name executor =>
      have hkeep : (some u).filter (fun u => !(none : Option PipelineSpec).isSome &&
          u.status.executor.isSome) = some u := by
        simp [executor]
      rw [hkeep]
      exact .unconfirmed executor

/-- A slot that names at most one agent, and that one is in the directory. -/
def Slot.Legible (slot : Slot) (directory : KeyMap Simulation.Registration) : Prop :=
  ∃ named, slot.Tells named ∧ ∀ name, named = some name → directory.contains name = true

namespace Deed

/-- The call is about a pipeline. -/
def About (d : Deed) (w p : String) : Bool :=
  d.request.workflow == w && d.request.pipeline == p

/-- The call left a pipeline with the agent that is like the given one. -/
def Leaves (d : Deed) (spec : PipelineSpec) : Prop :=
  ∃ j sent, d.leaves = some j ∧ PipelineSpec.read.run j = some sent ∧ sent.Alike spec

/-- A call that left a pipeline like one spec left it like every spec that is alike. -/
theorem Leaves.congr {deed : Deed} {spec spec' : PipelineSpec} (h : deed.Leaves spec)
    (halike : spec.Alike spec') : deed.Leaves spec' := by
  obtain ⟨j, sent, hj, hsent, hlike⟩ := h
  exact ⟨j, sent, hj, hsent, hlike.trans halike⟩

end Deed

namespace Fleet

/-- The last call about a pipeline that was carried out. -/
def last (x : Fleet) (w p : String) : Option Deed := x.deeds.find? fun d => d.About w p

/-- What a working copy tells about one pipeline of a workflow is so. -/
structure Told (x : Fleet) (w p : String) (slot : Slot) (named : Option String) : Prop where
  tells : slot.Tells named
  /-- The agent that is named is in the directory. -/
  known : ∀ name, named = some name → x.directory.contains name = true
  /-- Only the agent that is named may hold the pipeline. -/
  holders : ∀ name, x.Holds name w p → named = some name
  /-- An executor on record holds what the last call left, and if that was a schedule or was heard
  of, it is what was applied last. -/
  runs : ∀ d name, slot.spec = some d → named = some name →
    ∃ deed, x.last w p = some deed ∧ (x.held name w p).map (·.spec) = deed.leaves ∧
      (deed.heard = true ∨ deed.action = .schedule → deed.Leaves d)

/-- Nothing was carried out about a pipeline. -/
structure SameAt (x x' : Fleet) (w p : String) : Prop where
  directory : x'.directory = x.directory
  held : ∀ name, x'.held name w p = x.held name w p
  last : x'.last w p = x.last w p

theorem Idle.sameAt {x x' : Fleet} (h : Idle x x') (w p : String) : SameAt x x' w p :=
  ⟨h.directory, fun name => h.held name w p, by rw [Fleet.last, h.deeds, Fleet.last]⟩

/-- A call that was carried out concerns one pipeline. -/
theorem Did.sameAt {x x' : Fleet} {name : String} {deed : Deed} (h : Did x x' name deed)
    {w p : String} (hne : deed.About w p = false) : SameAt x x' w p := by
  refine ⟨h.directory, ?_, ?_⟩
  · intro other
    apply h.others
    rintro ⟨-, rfl, rfl⟩
    simp [Deed.About] at hne
  · rw [Fleet.last, h.deeds, List.find?_cons, hne]
    rfl

theorem Did.last {x x' : Fleet} {name : String} {deed : Deed} (h : Did x x' name deed) :
    x'.last deed.request.workflow deed.request.pipeline = some deed := by
  rw [Fleet.last, h.deeds, List.find?_cons]
  simp [Deed.About]

theorem SameAt.told {x x' : Fleet} {w p : String} (h : SameAt x x' w p) {slot : Slot}
    {named : Option String} (ht : Told x w p slot named) : Told x' w p slot named := by
  refine ⟨ht.tells, ?_, ?_, ?_⟩
  · rw [h.directory]
    exact ht.known
  · intro name hname
    apply ht.holders
    rw [Holds, h.held] at hname
    exact hname
  · intro d name hd hname
    rw [h.last, h.held]
    exact ht.runs d name hd hname

/-! ## One action -/

/-- What an action does to the slot of its pipeline and to the fleet. -/
inductive Moved (x : Fleet) (w p : String) (spec : PipelineSpec) (slot : Slot)
    (named : Option String) : PipelineAction → Slot → Fleet → Prop where
  /-- Nothing comes of it. -/
  | refused {action : PipelineAction} {x' : Fleet} (h : Idle x x') :
      Moved x w p spec slot named action slot x'
  /-- It is not known whether an agent took the pipeline, and it did not. -/
  | pending {status : PipelineStatus} {name : String} {x' : Fleet}
      (known : x.directory.contains name = true)
      (returns : ∀ earlier, named = some earlier → x.directory.contains earlier = true →
        name = earlier)
      (executor : status.executor = some name) (h : Idle x x') :
      Moved x w p spec slot named .schedule ⟨none, none, some ⟨spec, status⟩⟩ x'
  /-- It is not known whether an agent took the pipeline, and it did. -/
  | sent {status : PipelineStatus} {name : String} {x' : Fleet}
      (known : x.directory.contains name = true)
      (returns : ∀ earlier, named = some earlier → x.directory.contains earlier = true →
        name = earlier)
      (executor : status.executor = some name)
      (h : Did x x' name ⟨false, .schedule, Scheduler.request w p spec⟩) :
      Moved x w p spec slot named .schedule ⟨none, none, some ⟨spec, status⟩⟩ x'
  | scheduled {status : PipelineStatus} {name : String} {x' : Fleet}
      (known : x.directory.contains name = true)
      (returns : ∀ earlier, named = some earlier → x.directory.contains earlier = true →
        name = earlier)
      (executor : status.executor = some name)
      (h : Did x x' name ⟨true, .schedule, Scheduler.request w p spec⟩) :
      Moved x w p spec slot named .schedule ⟨some spec, some status, none⟩ x'
  /-- An executor did what was asked and was not heard. -/
  | unheard {action : PipelineAction} {name : String} {x' : Fleet} (hname : named = some name)
      (hact : action ≠ .schedule)
      (h : Did x x' name ⟨false, action, Scheduler.request w p spec⟩) :
      Moved x w p spec slot named action slot x'
  | updated {status : PipelineStatus} {name : String} {x' : Fleet} (hname : named = some name)
      (executor : status.executor = some name)
      (h : Did x x' name ⟨true, .update, Scheduler.request w p spec⟩) :
      Moved x w p spec slot named .update ⟨some spec, some status, none⟩ x'
  | removed {name : String} {x' : Fleet} (hname : named = some name)
      (h : Did x x' name ⟨true, .remove, Scheduler.request w p spec⟩) :
      Moved x w p spec slot named .remove ⟨none, none, none⟩ x'

/-- An action is at most one call that an agent carries out. -/
theorem Moved.idle_or_did {x x' : Fleet} {w p : String} {spec : PipelineSpec} {slot slot' : Slot}
    {named : Option String} {action : PipelineAction}
    (h : Moved x w p spec slot named action slot' x') :
    Idle x x' ∨ ∃ name heard, Did x x' name ⟨heard, action, Scheduler.request w p spec⟩ := by
  cases h with
  | refused h => exact .inl h
  | pending _ _ _ h => exact .inl h
  | sent _ _ _ h => exact .inr ⟨_, _, h⟩
  | scheduled _ _ _ h => exact .inr ⟨_, _, h⟩
  | unheard _ _ h => exact .inr ⟨_, _, h⟩
  | updated _ _ h => exact .inr ⟨_, _, h⟩
  | removed _ h => exact .inr ⟨_, _, h⟩

/-- An action concerns one pipeline. -/
theorem Moved.sameAt {x x' : Fleet} {w p : String} {spec : PipelineSpec} {slot slot' : Slot}
    {named : Option String} {action : PipelineAction}
    (h : Moved x w p spec slot named action slot' x') {w' p' : String}
    (hne : ¬ (w' = w ∧ p' = p)) : SameAt x x' w' p' := by
  rcases h.idle_or_did with h | ⟨name, heard, h⟩
  · exact h.sameAt w' p'
  · refine h.sameAt ?_
    simp only [Deed.About, Scheduler.request, Bool.and_eq_false_iff, beq_eq_false_iff_ne]
    by_cases hw : w = w'
    · exact .inr fun hp => hne ⟨hw.symm, hp.symm⟩
    · exact .inl hw

theorem Moved.directory {x x' : Fleet} {w p : String} {spec : PipelineSpec} {slot slot' : Slot}
    {named : Option String} {action : PipelineAction}
    (h : Moved x w p spec slot named action slot' x') : x'.directory = x.directory := by
  rcases h.idle_or_did with h | ⟨name, heard, h⟩
  · exact h.directory
  · exact h.directory

/-- Nobody but the agent that carried out a call can hold its pipeline afterwards, if nobody else
could before. -/
private theorem holders_did {x x' : Fleet} {w p name : String} {heard : Bool}
    {action : PipelineAction} {spec : PipelineSpec}
    (h : Did x x' name ⟨heard, action, Scheduler.request w p spec⟩)
    (hbefore : ∀ other, x.Holds other w p → other = name) :
    ∀ other, x'.Holds other w p → some name = some other := by
  intro other hother
  by_cases heq : other = name
  · rw [heq]
  · have hsame := h.others other w p fun hall => heq hall.1
    rw [Holds, hsame] at hother
    exact absurd (hbefore other hother) heq

/-- Nobody holds a pipeline after the only agent that could was made to remove it. -/
theorem Did.not_holds {x x' : Fleet} {w p name : String} {heard : Bool} {spec : PipelineSpec}
    (h : Did x x' name ⟨heard, .remove, Scheduler.request w p spec⟩)
    (hbefore : ∀ other, x.Holds other w p → other = name) (other : String) :
    ¬ x'.Holds other w p := by
  intro hother
  obtain rfl := Option.some.inj (holders_did h hbefore other hother)
  have hown := h.own
  rw [Holds] at hother
  simp only [Scheduler.request, Deed.leaves, Option.map_eq_none_iff] at hown
  rw [hown] at hother
  cases hother

/-- A call that sends a pipeline leaves it with the agent. -/
private theorem leaves_sent (heard : Bool) {action : PipelineAction} (hact : action ≠ .remove)
    (w p : String) (spec : PipelineSpec) :
    (⟨heard, action, Scheduler.request w p spec⟩ : Deed).Leaves spec := by
  refine ⟨spec.fingerprint, spec, ?_, spec.read_fingerprint, ⟨rfl, rfl, rfl⟩⟩
  cases action with
  | remove => exact absurd rfl hact
  | _ => rfl

/-- Agents that hold a pipeline are in the directory. -/
theorem contains_of_holds {x : Fleet} {name w p : String} (h : x.Holds name w p) :
    x.directory.contains name = true := by
  unfold Holds held agent? at h
  cases hr : x.directory.get? name with
  | none => simp [hr] at h
  | some r => exact (KeyMap.contains_iff _ _).2 ⟨r, hr⟩

/-- An action leaves a slot that names at most one agent. -/
theorem Moved.legible {x x' : Fleet} {w p : String} {spec : PipelineSpec} {slot slot' : Slot}
    {named : Option String} {action : PipelineAction}
    (h : Moved x w p spec slot named action slot' x') (htells : slot.Tells named)
    (hknown : ∀ name, named = some name → x.directory.contains name = true) :
    slot'.Legible x.directory := by
  have hone : ∀ {name : String}, x.directory.contains name = true →
      ∀ other, some name = some other → x.directory.contains other = true := by
    rintro name hname other hother
    obtain rfl := Option.some.inj hother
    exact hname
  cases h with
  | refused h => exact ⟨named, htells, hknown⟩
  | pending known _ executor h => exact ⟨_, .unconfirmed executor, hone known⟩
  | sent known _ executor h => exact ⟨_, .unconfirmed executor, hone known⟩
  | scheduled known _ executor h => exact ⟨_, .applied executor, hone known⟩
  | unheard _ _ h => exact ⟨named, htells, hknown⟩
  | updated hname executor h => exact ⟨_, .applied executor, hone (hknown _ hname)⟩
  | removed _ h => exact ⟨none, .nothing, fun _ hnone => by cases hnone⟩

/-- **The holders of a pipeline are named** after an action if they were before. -/
theorem Moved.holders {x x' : Fleet} {w p : String} {spec : PipelineSpec} {slot slot' : Slot}
    {named : Option String} {action : PipelineAction}
    (h : Moved x w p spec slot named action slot' x') (htells : slot.Tells named)
    (hbefore : ∀ other, x.Holds other w p → named = some other) :
    ∀ other, x'.Holds other w p → slot'.Tells (some other) := by
  have hexecutor : ∀ {name : String}, named = some name →
      ∀ other, x.Holds other w p → other = name := by
    intro name hname other hother
    exact (Option.some.inj (hname.symm.trans (hbefore other hother))).symm
  -- A pipeline that is held goes back to its holder.
  have hreturns : ∀ {name : String}, (∀ earlier, named = some earlier →
      x.directory.contains earlier = true → name = earlier) →
        ∀ other, x.Holds other w p → other = name := by
    intro name returns other hother
    exact (returns other (hbefore other hother) (contains_of_holds hother)).symm
  intro other hother
  cases h with
  | refused h =>
      rw [Holds, h.held] at hother
      rw [← hbefore other hother]
      exact htells
  | pending _ returns executor h =>
      rw [Holds, h.held] at hother
      obtain rfl := hreturns returns other hother
      exact .unconfirmed executor
  | sent _ returns executor h =>
      rw [← holders_did h (hreturns returns) other hother]
      exact .unconfirmed executor
  | scheduled _ returns executor h =>
      rw [← holders_did h (hreturns returns) other hother]
      exact .applied executor
  | unheard hname _ h =>
      rw [← holders_did h (hexecutor hname) other hother, ← hname]
      exact htells
  | updated hname executor h =>
      rw [← holders_did h (hexecutor hname) other hother]
      exact .applied executor
  | removed hname h => exact absurd hother (h.not_holds (hexecutor hname) other)

/-- **An action keeps up what is told** about its pipeline. -/
theorem Told.moved {x x' : Fleet} {w p : String} {spec : PipelineSpec} {slot slot' : Slot}
    {named : Option String} {action : PipelineAction} (ht : Told x w p slot named)
    (h : Moved x w p spec slot named action slot' x') : ∃ named', Told x' w p slot' named' := by
  obtain ⟨named', htells, hknown⟩ := h.legible ht.tells ht.known
  have hholders := h.holders ht.tells ht.holders
  refine ⟨named', htells, by rw [h.directory]; exact hknown,
    fun name hname => htells.unique (hholders name hname), ?_⟩
  intro d name hd hname
  cases h with
  | refused h =>
      obtain rfl := htells.unique ht.tells
      exact ((h.sameAt w p).told ht).runs d name hd hname
  | pending _ _ _ h => cases hd
  | sent _ _ _ h => cases hd
  | scheduled _ _ executor h =>
      obtain rfl := Option.some.inj hd
      obtain rfl := Option.some.inj (((Slot.Tells.applied executor).unique htells).trans hname)
      exact ⟨_, h.last, h.own, fun _ => leaves_sent true (by simp) w p spec⟩
  | unheard hnamed hact h =>
      obtain rfl := htells.unique ht.tells
      obtain rfl := Option.some.inj (hnamed.symm.trans hname)
      refine ⟨_, h.last, h.own, ?_⟩
      rintro (hheard | hschedule)
      · cases hheard
      · exact absurd hschedule hact
  | updated _ executor h =>
      obtain rfl := Option.some.inj hd
      obtain rfl := Option.some.inj (((Slot.Tells.applied executor).unique htells).trans hname)
      exact ⟨_, h.last, h.own, fun _ => leaves_sent true (by simp) w p spec⟩
  | removed _ h => cases hd

/-! ## The actions of a pass -/

/-- A pipeline that is told and not applied is scheduled with its executor on record. -/
theorem executor_of_unapplied {a : Applied} {p : String} {named : Option String}
    (ht : (a.slot p).Tells named) (hspec : a.spec.pipelines.get? p = none) :
    (a.statusFor ⟨p, .schedule⟩).executor = named := by
  obtain ⟨-, hnamed⟩ := ht.of_none hspec
  simp only [Applied.slot] at hnamed
  rcases hnamed with ⟨hu, rfl⟩ | ⟨u, name, hu, hexecutor, rfl⟩
  · simp [Applied.statusFor, hu, PipelineStatus.empty]
  · simp [Applied.statusFor, hu, hexecutor]

/-- A schedule moves a pipeline that is not applied. -/
theorem Scheduled.moved {x x' : Fleet} {w p : String} {a : Applied} {d : PipelineSpec}
    {result : Scheduler.Result}
    (h : Scheduled x w p d (a.statusFor ⟨p, .schedule⟩) result x') {named : Option String}
    (ht : (a.slot p).Tells named)
    (hknown : ∀ name, named = some name → x.directory.contains name = true)
    (hspec : a.spec.pipelines.get? p = none) :
    Moved x w p d (a.slot p) named .schedule ((a.fold ⟨p, .schedule⟩ d result).slot p) x' := by
  have hnamed := executor_of_unapplied ht hspec
  have hslot : ∀ u, (⟨(a.slot p).spec, (a.slot p).status, u⟩ : Slot) = ⟨none, none, u⟩ := by
    intro u
    rw [(ht.of_none hspec).1, Applied.slot, hspec]
  generalize a.statusFor ⟨p, .schedule⟩ = status at hnamed h
  subst hnamed
  cases h with
  | @refused _ e h =>
      have hkept := a.slot_fold_error ⟨p, .schedule⟩ d e status
      simp only [true_and] at hkept
      rw [hkept]
      cases hexecutor : status.executor with
      | none => simpa using Moved.refused h
      | some name =>
          rw [if_pos (show (some name).isSome = true from rfl), hslot]
          exact .pending (hknown name hexecutor) (fun _ hearlier _ => Option.some.inj hearlier)
            hexecutor h
  | @lost _ e name known returns h =>
      have hkept := a.slot_fold_error ⟨p, .schedule⟩ d e (status.attempted name)
      rw [if_pos ⟨rfl, rfl⟩, hslot] at hkept
      rw [hkept]
      exact .pending known returns rfl h
  | @unheard _ e name known returns h =>
      have hkept := a.slot_fold_error ⟨p, .schedule⟩ d e (status.attempted name)
      rw [if_pos ⟨rfl, rfl⟩, hslot] at hkept
      rw [hkept]
      exact .sent known returns rfl h
  | @answered _ report name known returns executor h =>
      have hmoved := a.slot_fold_ok ⟨p, .schedule⟩ d (status.overlay report)
      rw [if_neg (by simp)] at hmoved
      rw [hmoved]
      exact .scheduled known returns executor h

/-- A call to the executor moves a pipeline that names one. -/
theorem Consulted.moved {x x' : Fleet} {w p name : String} {a : Applied} {action : PipelineAction}
    (hact : action ≠ .schedule) {spec : PipelineSpec} {status : PipelineStatus}
    {result : Scheduler.Result} (h : Consulted x action w p spec status name result x') :
    Moved x w p spec (a.slot p) (some name) action ((a.fold ⟨p, action⟩ spec result).slot p)
      x' := by
  have hkept : ∀ e status, (a.fold ⟨p, action⟩ spec (.error e, status)).slot p = a.slot p := by
    intro e status
    have hfold := a.slot_fold_error ⟨p, action⟩ spec e status
    rwa [if_neg fun h => hact h.1] at hfold
  cases h with
  | failed h =>
      rw [hkept]
      exact .refused h
  | unheard h =>
      rw [hkept]
      exact .unheard rfl hact h
  | @answered _ report executor h =>
      have hmoved := a.slot_fold_ok ⟨p, action⟩ spec (status.overlay report)
      rw [hmoved]
      cases action with
      | schedule => exact absurd rfl hact
      | update => exact .updated rfl executor h
      | remove => exact .removed rfl h

/-- What is removed is known with its executor. -/
private theorem removable (desired : WorkflowSpec) {a : Applied} {p : String}
    {named : Option String} (ht : (a.slot p).Tells named)
    (hclaimed : a.spec.pipelines.contains p = true ∨ a.unconfirmed.contains p = true) :
    ∃ spec name, a.specFor desired ⟨p, .remove⟩ = some spec ∧
      (a.statusFor ⟨p, .remove⟩).executor = some name ∧ named = some name := by
  cases hspec : a.spec.pipelines.get? p with
  | some old =>
      obtain ⟨status, name, hstatus, hexecutor, rfl⟩ := ht.of_some hspec
      have hrecorded : a.pipelines.get? p = some status := hstatus
      refine ⟨old, name, ?_, ?_, rfl⟩
      · simp [Applied.specFor, hspec]
      · simpa [Applied.statusFor, hrecorded] using hexecutor
  | none =>
      obtain ⟨hstatus, ⟨hu, -⟩ | ⟨u, name, hu, hexecutor, rfl⟩⟩ := ht.of_none hspec
      · have hu : a.unconfirmed.get? p = none := hu
        simp [KeyMap.contains, hspec, hu] at hclaimed
      · have hu : a.unconfirmed.get? p = some u := hu
        have hrecorded : a.pipelines.get? p = none := hstatus
        refine ⟨u.spec, name, ?_, ?_, rfl⟩
        · simp [Applied.specFor, hspec, hu]
        · simpa [Applied.statusFor, hrecorded, hu] using hexecutor

/-- An action that is needed is a schedule of a pipeline that is not applied, or a call to the
executor on record. -/
theorem kind_of_needs {desired : WorkflowSpec} {a : Applied} {planned : PlannedAction}
    (hneeds : a.needs desired planned.pipeline = some planned.action) {named : Option String}
    (ht : (a.slot planned.pipeline).Tells named) :
    ∃ spec, a.specFor desired planned = some spec ∧
      ((planned.action = .schedule ∧ a.spec.pipelines.get? planned.pipeline = none) ∨
        planned.action ≠ .schedule ∧ ∃ name, named = some name ∧
          (a.statusFor planned).executor = some name) := by
  obtain ⟨p, action⟩ := planned
  cases Applied.needed hneeds with
  | schedule wanted unapplied => exact ⟨_, wanted, .inl ⟨rfl, unapplied⟩⟩
  | update wanted applied =>
      obtain ⟨status, name, hstatus, hexecutor, rfl⟩ := ht.of_some applied
      have hrecorded : a.pipelines.get? p = some status := hstatus
      refine ⟨_, wanted, .inr ⟨by simp, name, rfl, ?_⟩⟩
      simpa [Applied.statusFor, hrecorded] using hexecutor
  | remove _ claimed =>
      obtain ⟨spec, name, hfor, hexecutor, rfl⟩ := removable desired ht claimed
      exact ⟨spec, hfor, .inr ⟨by simp, name, rfl, hexecutor⟩⟩

/-- **What an action does** to its pipeline, if it is needed. -/
theorem moved (deadline : Span) (w : String) (desired : WorkflowSpec) {x : Fleet} (hx : x.Honest)
    {a : Applied} {planned : PlannedAction}
    (hneeds : a.needs desired planned.pipeline = some planned.action) {named : Option String}
    (ht : (a.slot planned.pipeline).Tells named)
    (hknown : ∀ name, named = some name → x.directory.contains name = true) :
    let r := (a.apply deadline w desired planned).run side.answer x
    ∃ spec, Moved x w planned.pipeline spec (a.slot planned.pipeline) named planned.action
      (r.1.2.slot planned.pipeline) r.2 := by
  obtain ⟨spec, hfor, hkind⟩ := kind_of_needs hneeds ht
  obtain ⟨p, action⟩ := planned
  refine ⟨spec, ?_⟩
  rw [Applied.run_apply, hfor]
  rcases hkind with ⟨rfl, hspec⟩ | ⟨hact, name, rfl, hexecutor⟩
  · exact (scheduled hx deadline w p spec _).moved ht hknown hspec
  · simp only [Scheduler.dispatch_of_executor deadline hact w p spec hexecutor]
    exact (consulted hx deadline action w p spec _ name).moved hact

/-! ## Whole working copies -/

theorem SameAt.refl (x : Fleet) (w p : String) : SameAt x x w p := ⟨rfl, fun _ => rfl, rfl⟩

theorem SameAt.trans {x y z : Fleet} {w p : String} (h : SameAt x y w p) (h' : SameAt y z w p) :
    SameAt x z w p :=
  ⟨h'.directory.trans h.directory, fun name => (h'.held name).trans (h.held name),
    h'.last.trans h.last⟩

/-- What a working copy tells is so, pipeline by pipeline. -/
def Faithful (x : Fleet) (w : String) (a : Applied) : Prop :=
  ∀ p, ∃ named, Told x w p (a.slot p) named

/-- A copy in which nothing is applied is faithful if nothing is held. -/
theorem faithful_empty {x : Fleet} {w : String} (h : ∀ name p, ¬ x.Holds name w p)
    (name : String) : x.Faithful w (.empty name) := by
  intro p
  refine ⟨none, ?_, (fun _ hnone => by cases hnone),
    fun other hother => absurd hother (h other p), fun d _ hd => ?_⟩
  · simpa [Applied.slot, Applied.empty, WorkflowSpec.empty] using Slot.Tells.nothing
  · simp [Applied.slot, Applied.empty, WorkflowSpec.empty] at hd

/-- What is told of one workflow depends on nothing that is done about others. -/
theorem Faithful.congr {x x' : Fleet} {w : String} {a : Applied} (h : x.Faithful w a)
    (hsame : ∀ p, SameAt x x' w p) : x'.Faithful w a := by
  intro p
  obtain ⟨named, ht⟩ := h p
  exact ⟨named, (hsame p).told ht⟩

/-- An action keeps a working copy faithful, and does nothing about other workflows. -/
theorem Faithful.apply {x : Fleet} (hx : x.Proper) {w : String} {a : Applied} (h : x.Faithful w a)
    (deadline : Span) (desired : WorkflowSpec) {planned : PlannedAction}
    (hneeds : a.needs desired planned.pipeline = some planned.action) :
    let r := (a.apply deadline w desired planned).run side.answer x
    r.2.Faithful w r.1.2 ∧ ∀ w' p, w' ≠ w → SameAt x r.2 w' p := by
  obtain ⟨named, ht⟩ := h planned.pipeline
  obtain ⟨spec, hmoved⟩ := moved deadline w desired hx.honest hneeds ht.tells ht.known
  obtain ⟨named', ht'⟩ := ht.moved hmoved
  have hothers := (Applied.effect side.answer deadline w desired planned a x).others
  refine ⟨fun q => ?_, fun w' p hw => hmoved.sameAt fun heq => hw heq.1⟩
  by_cases hq : q = planned.pipeline
  · rw [hq]
    exact ⟨named', ht'⟩
  · obtain ⟨other, hother⟩ := h q
    rw [hothers q hq]
    exact ⟨other, (hmoved.sameAt fun heq => hq heq.2).told hother⟩

/-- A list of actions keeps a working copy faithful, and does nothing about other workflows. -/
theorem Faithful.all {x : Fleet} (hx : x.Proper) {w : String} {a : Applied} (h : x.Faithful w a)
    (deadline : Span) (desired : WorkflowSpec) {actions : List PlannedAction}
    (hnodup : (actions.map (·.pipeline)).Nodup)
    (hneeds : ∀ planned ∈ actions, a.needs desired planned.pipeline = some planned.action) :
    let r := (Attempt.all deadline w desired actions a).run side.answer x
    r.2.Faithful w r.1.state ∧ ∀ w' p, w' ≠ w → SameAt x r.2 w' p := by
  have hall := Attempt.all_preserves side.answer deadline w desired
    (P := fun a y => y.Proper ∧ y.Faithful w a ∧ ∀ w' p, w' ≠ w → SameAt x y w' p)
    (fun planned a y ⟨hy, hfaithful, hsame⟩ hneeded => by
      obtain ⟨hkept, hothers⟩ := hfaithful.apply hy deadline desired hneeded
      exact ⟨side.run_proper _ hy, hkept, fun w' p hw => (hsame w' p hw).trans (hothers w' p hw)⟩)
    hnodup hneeds ⟨hx, h, fun w' p _ => SameAt.refl x w' p⟩
  exact hall.2

/-- **A removal succeeds** once every call is answered. -/
theorem Faithful.removal_succeeds {x : Fleet} (hx : x.Proper) (hcalm : x.fates = []) {w : String}
    {a : Applied} (h : x.Faithful w a) (hapart : a.Apart) (deadline : Span) :
    ((Attempt.all deadline w (.empty w) (removalActions a) a).run side.answer x).1.failures =
      [] := by
  refine Attempt.failures_eq_nil side.answer deadline w (.empty w)
    (P := fun a y => y.Proper ∧ y.Faithful w a ∧ y.fates = []) ?_ (nodup_removalActions hapart)
    (fun planned hplanned => needs_of_mem_removalActions hplanned w) ⟨hx, h, hcalm⟩
  rintro ⟨p, action⟩ hplanned a y ⟨hy, hfaithful, hquiet⟩ hneeded
  obtain ⟨rfl, -⟩ := (mem_removalActions_iff _ _).1 hplanned
  have hkept := hfaithful.apply hy deadline (.empty w) hneeded
  refine ⟨?_, side.run_proper _ hy, hkept.1, fates_run _ hquiet⟩
  obtain ⟨named, ht⟩ := hfaithful p
  have hclaimed : a.spec.pipelines.contains p = true ∨ a.unconfirmed.contains p = true := by
    cases Applied.needed hneeded with
    | remove _ claimed => exact claimed
  obtain ⟨spec, name, hfor, hexecutor, rfl⟩ := removable (.empty w) ht.tells hclaimed
  rw [Applied.run_apply, hfor]
  simp only [Scheduler.dispatch, Scheduler.remove, hexecutor]
  have hok := consulted_of_fates hy.honest hquiet (ht.known name rfl) deadline .remove w p spec
    (a.statusFor ⟨p, .remove⟩)
  rw [hok]
  rfl

/-- **A document is as faithful as the working copy** that it was written from. -/
theorem Faithful.reread {x : Fleet} {w : String} {a : Applied} (h : x.Faithful w a)
    (t : Option Instant) : x.Faithful w (.ofStatus (a.toStatus t)) := by
  intro p
  obtain ⟨named, ht⟩ := h p
  refine ⟨named, ht.tells.reread t, ht.known, ht.holders, ?_⟩
  intro d other hd hother
  -- What is read back differs from what was written in what is derived only.
  have hspec : a.spec.resolved.pipelines.get? p = some d := hd
  rw [WorkflowSpec.get?_resolved] at hspec
  obtain ⟨written, hwritten, rfl⟩ := Option.map_eq_some_iff.1 hspec
  obtain ⟨deed, hlast, hheld, hleaves⟩ := ht.runs written other hwritten hother
  exact ⟨deed, hlast, hheld, fun hheard => (hleaves hheard).congr (written.alike_derived _)⟩

end Fleet

end FleetControl
