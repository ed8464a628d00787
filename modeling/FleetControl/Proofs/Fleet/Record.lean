import FleetControl.Proofs.Fleet.Calls
import FleetControl.Proofs.Fleet.Stepwise

/-!
# The record of one workflow

The document of a workflow is its record: every agent that holds one of its pipelines should be named
by it. While callbacks about the workflow are suspended the record may fall behind the agents, but it
stays in order: it can be read, it does not expire, and it names at most one agent for each pipeline.

* `Site.Recorded` — every holder is named by the live document;
* `Site.Orderly` — the document is in order;
* `Site.Orderly.load`, `Site.Orderly.set`, `Site.Orderly.delete` — the requests about the document.
-/

namespace FleetControl

/-- Every agent that holds a pipeline of a workflow is told by a working copy. -/
def Fleet.Covered (x : Fleet) (w : String) (a : Applied) : Prop :=
  ∀ name p, x.Holds name w p → (a.slot p).Tells (some name)

/-- A document names exactly the agents that its working copy tells. -/
theorem WorkflowStatus.names_iff_tells {doc : WorkflowStatus} {p : String} {named : Option String}
    (h : ((Applied.ofStatus doc).slot p).Tells named) (name : String) :
    doc.Names name p ↔ ((Applied.ofStatus doc).slot p).Tells (some name) := by
  refine ⟨fun hnames => ?_, names_of_tells⟩
  suffices hnamed : named = some name from hnamed ▸ h
  generalize hslot : (Applied.ofStatus doc).slot p = slot at h
  have hspec : doc.spec.resolved.pipelines.get? p = slot.spec := congrArg Slot.spec hslot
  have hstatus : doc.pipelines.get? p = slot.status := congrArg Slot.status hslot
  have hunconfirmed : doc.unconfirmed.get? p = slot.unconfirmed := congrArg Slot.unconfirmed hslot
  unfold Names at hnames
  rw [← WorkflowSpec.contains_resolved, KeyMap.contains, hspec, hstatus, hunconfirmed] at hnames
  cases h with
  | nothing => simp at hnames
  | applied executor => simpa [executor] using hnames
  | unconfirmed executor => simpa [executor] using hnames

/-- Where nothing is applied, nobody is named. -/
theorem Applied.tells_empty (w p : String) : ((empty w).slot p).Tells none := by
  simpa [slot, empty, WorkflowSpec.empty] using Slot.Tells.nothing

namespace Site

/-- The working copy of the document of a workflow. -/
def copy (s : Site Fleet) (w : String) : Applied := .ofStatus? w (s.document w)

/-- Every agent that holds a pipeline of a workflow is named by the live document of the workflow. -/
def Recorded (w : String) (s : Site Fleet) : Prop :=
  ∀ name p, s.side.Holds name w p → ∃ doc, s.document w = some doc ∧ doc.Names name p

/-- The document of a workflow is in order. -/
structure Orderly (w : String) (s : Site Fleet) : Prop where
  proper : s.side.Proper
  /-- The document does not expire. -/
  lasting : s.store.TimelessAt (statusKey w)
  /-- The document can be read. -/
  readable : ∀ t e, s.store.live? t (statusKey w) = some e →
    ∃ doc, WorkflowStatus.decode? e.data = some doc
  /-- The document is about the workflow. -/
  own : (s.copy w).spec.name = w
  /-- The document names at most one agent for each pipeline, and that one is in the directory. -/
  legible : (s.copy w).Legible s.side.directory

/-- Documents that are true to the fleet are in order. -/
theorem Accounted.orderly {s : Site Fleet} (h : s.Accounted) (w : String) : s.Orderly w := by
  refine ⟨h.proper, h.lasting w, h.readable w, h.name w, fun p => ?_⟩
  obtain ⟨named, ht⟩ := h.faithful w p
  exact ⟨named, ht.tells, ht.known⟩

/-- The document names the holders exactly if its working copy does. -/
theorem names_iff_copy {s : Site Fleet} {w : String} (h : (s.copy w).Legible s.side.directory)
    (name p : String) : (∃ doc, s.document w = some doc ∧ doc.Names name p) ↔
      ((s.copy w).slot p).Tells (some name) := by
  obtain ⟨named, htells, -⟩ := h p
  unfold copy at htells ⊢
  cases hdoc : s.document w with
  | none =>
      constructor
      · rintro ⟨doc, hsome, -⟩
        cases hsome
      · intro hname
        cases hname.unique (Applied.tells_empty w p)
  | some doc =>
      rw [hdoc] at htells
      have hnames := WorkflowStatus.names_iff_tells htells name
      constructor
      · rintro ⟨other, hother, hname⟩
        obtain rfl := Option.some.inj hother
        exact hnames.1 hname
      · exact fun hname => ⟨doc, rfl, hnames.2 hname⟩

namespace Orderly

variable {w : String} {s : Site Fleet}

theorem recorded_iff (h : s.Orderly w) : s.Recorded w ↔ s.side.Covered w (s.copy w) :=
  forall_congr' fun name => forall_congr' fun p => imp_congr_right fun _ =>
    names_iff_copy h.legible name p

/-- The working copy that is read is sound. -/
theorem sound (_ : s.Orderly w) : (s.copy w).Sound := sound_of_document rfl w

/-- What is done apart from the document leaves it as it is and in order. -/
theorem congr (h : s.Orderly w) {s' : Site Fleet} (hproper : s'.side.Proper)
    (hdirectory : s'.side.directory = s.side.directory)
    (hlasting : s'.store.TimelessAt (statusKey w))
    (hlive : ∀ t, s'.store.live? t (statusKey w) = s.store.live? t (statusKey w)) :
    s'.Orderly w ∧ s'.document w = s.document w := by
  have hdocument := document_congr h.lasting hlive
  have hcopy : s'.copy w = s.copy w := by rw [copy, hdocument, copy]
  refine ⟨⟨hproper, hlasting, fun t e he => h.readable t e (by rwa [hlive] at he), ?_, ?_⟩,
    hdocument⟩
  · rw [hcopy]
    exact h.own
  · rw [hcopy, hdirectory]
    exact h.legible

/-- What is done about agents leaves the document as it is. -/
theorem of_side (h : s.Orderly w) {x : Fleet} (hx : x.Proper)
    (hdirectory : x.directory = s.side.directory) :
    ({ s with side := x } : Site Fleet).Orderly w ∧
      ({ s with side := x } : Site Fleet).document w = s.document w :=
  h.congr hx hdirectory h.lasting fun _ => rfl

/-- Time goes on. -/
theorem tick (h : s.Orderly w) : s.tick.Orderly w ∧ s.tick.document w = s.document w :=
  h.congr (by simpa using h.proper) (by simp) (by simpa using h.lasting) fun t => by simp

/-- Looking the document up may drop what is gone, and leaves the document as it is. -/
theorem found (h : s.Orderly w) :
    ({ s.tick with store := (s.store.find s.tick.now (statusKey w)).2 } : Site Fleet).Orderly w ∧
      ({ s.tick with store := (s.store.find s.tick.now (statusKey w)).2 } : Site Fleet).document w =
        s.document w :=
  h.congr (by simpa using h.proper) (by simp) (Memory.timelessAt_find h.lasting _ _)
    fun t => Memory.live?_find h.lasting _ _ t

/-! ## Requests about the document -/

/-- Reading the document does not fail, and changes nothing. -/
theorem load (h : s.Orderly w) {outcome : Except ControlError (Option WorkflowStatus)}
    {s' : Site Fleet} (hrun : (loadStatus w).exec (answer Fleet.side) s = (some outcome, s')) :
    outcome = .ok (s.document w) ∧ s'.side = s.side ∧ s'.Orderly w ∧
      s'.document w = s.document w := by
  cases outcome with
  | ok previous =>
      obtain ⟨hdoc, -, rfl⟩ := document_of_exec Fleet.side hrun
      exact ⟨by rw [hdoc], tick_side s, h.found⟩
  | error e =>
      by_cases hdatable : s.store.DatableAt s.tick.now (statusKey w)
      · cases hlive : s.store.live? s.tick.now (statusKey w) with
        | none =>
            rw [exec_loadStatus_of_not_live Fleet.side hlive hdatable] at hrun
            cases hrun
        | some entry =>
            obtain ⟨doc, hdoc⟩ := h.readable _ entry hlive
            rw [exec_loadStatus_of_live Fleet.side hlive, hdoc] at hrun
            cases hrun
      · rw [exec_loadStatus_of_not_datable Fleet.side hdatable] at hrun
        cases hrun

/-- Writing a working copy that is in order leaves its document. -/
theorem set (h : s.Orderly w) {a : Applied} (hname : a.spec.name = w) (hdated : a.Dated)
    (hlegible : a.Legible s.side.directory) (t : Moment)
    {reply : Except StoreError Nat} {s' : Site Fleet}
    (hrun : answer Fleet.side (.store (.set (statusKey w) (a.toStatus (some t.val)).encode)) s =
      (some reply, s')) :
    (∃ version, reply = .ok version) ∧ s'.side = s.side ∧ s'.Orderly w ∧
      s'.document w = some (a.toStatus (some t.val)) := by
  simp only [answer, Memory.apply, tick_store] at hrun
  by_cases hdatable : s.store.DatableAt s.tick.now (statusKey w)
  · rw [Memory.set_eq _ (statusKey_ne_empty w) hdatable] at hrun
    cases hrun
    have hread := Applied.reread_toStatus hdated t
    have hlive := Memory.live?_written_self s.store
    have hdocument : ({ s.tick with
        store := s.store.written (statusKey w) (a.toStatus (some t.val)).encode } :
          Site Fleet).document w = some (a.toStatus (some t.val)) := by
      simp only [document, hlive, Option.bind_some, hread]
    refine ⟨⟨_, rfl⟩, tick_side s, ⟨by simpa using h.proper,
      Memory.timelessAt_written h.lasting _ _, ?_, ?_, ?_⟩, hdocument⟩
    · intro t' e he
      simp only [hlive] at he
      obtain rfl := Option.some.inj he
      exact ⟨_, hread⟩
    · rw [copy, hdocument]
      exact hname
    · rw [copy, hdocument]
      intro p
      obtain ⟨named, htells, hknown⟩ := hlegible p
      rw [← tick_side s] at hknown
      exact ⟨named, htells.reread _, hknown⟩
  · rw [Memory.set_of_not_datable _ (statusKey_ne_empty w) hdatable] at hrun
    cases hrun

/-- After the document was deleted there is none, whether there was one or not. -/
theorem delete (h : s.Orderly w) {reply : Except StoreError Unit} {s' : Site Fleet}
    (hrun : answer Fleet.side (.store (.delete (statusKey w))) s = (some reply, s')) :
    s'.side = s.side ∧ s'.Orderly w ∧ s'.document w = none := by
  simp only [answer, Memory.apply, tick_store] at hrun
  by_cases hdatable : s.store.DatableAt s.tick.now (statusKey w)
  · rw [Memory.delete_eq hdatable] at hrun
    cases hlive : s.store.live? s.tick.now (statusKey w) with
    | none =>
        rw [hlive] at hrun
        cases hrun
        have hnone : s.document w = none := by rw [document, hlive, Option.bind_none]
        exact ⟨tick_side s, h.found.1, h.found.2.trans hnone⟩
    | some e =>
        have hentry := ((h.lasting.live?_eq_some_iff _ _).1 hlive).1
        rw [hlive] at hrun
        cases hrun
        have hgone : ∀ t, (s.store.deleted s.tick.now (statusKey w) e).live? t (statusKey w) =
            none := fun t => Memory.live?_deleted_self _ _ _ _ _
        have hdocument : (s.removed w e).document w = none := by
          simp only [document, removed, hgone, Option.bind_none]
        change (s.removed w e).side = s.side ∧ (s.removed w e).Orderly w ∧ _
        refine ⟨tick_side s, ⟨by simpa [Site.removed] using h.proper,
          Memory.timelessAt_deleted h.lasting _ hentry, ?_, ?_, ?_⟩, hdocument⟩
        · intro t e' he
          rw [Site.removed, hgone] at he
          cases he
        · rw [copy, hdocument]
          rfl
        · rw [copy, hdocument]
          exact fun p => ⟨none, Applied.tells_empty w p, fun _ hnone => by cases hnone⟩
  · rw [Memory.delete_of_not_datable hdatable] at hrun
    cases hrun

end Orderly

end Site

end FleetControl
