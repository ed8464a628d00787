import FleetControl.Proofs.Fleet.Told
import FleetControl.Proofs.Reconcile.Pass

/-!
# Documents that are true to a fleet

The status documents of a site are true to its fleet if each is readable, does not expire, is about
the workflow under whose key it is, and tells what is so. What is done about one workflow keeps that
up, and it changes neither the documents of other workflows nor any manifest.

* `Site.Accounted` — the documents are true to the fleet;
* `Site.Follows` — a step about one workflow that keeps this up;
* `Site.Accounted.loadStatus`, `Site.Accounted.saved`, `Site.Accounted.removed` — reading, writing and
  deleting a document are such steps.
-/

namespace FleetControl

open Fleet (SameAt)

namespace Site

variable {τ : Type}

/-- A document is the same in stores with the same live entry. -/
theorem document_congr {s s' : Site τ} {w : String} (h : s.store.TimelessAt (statusKey w))
    (hlive : ∀ t, s'.store.live? t (statusKey w) = s.store.live? t (statusKey w)) :
    s'.document w = s.document w := by
  unfold document
  rw [hlive, h.live?_eq]

/-- The documents are true to the fleet. -/
structure Accounted (s : Site Fleet) : Prop where
  proper : s.side.Proper
  /-- Documents do not expire. -/
  lasting : ∀ w, s.store.TimelessAt (statusKey w)
  /-- Documents can be read. -/
  readable : ∀ w t e, s.store.live? t (statusKey w) = some e →
    ∃ doc, WorkflowStatus.decode? e.data = some doc
  /-- A document is about the workflow under whose key it is. -/
  own : ∀ w doc, s.document w = some doc → doc.name = w
  faithful : ∀ w, s.side.Faithful w (.ofStatus? w (s.document w))

/-- A step about one workflow: the documents stay true to the fleet, those of other workflows and the
manifests stay as they are, and calls that are answered stay answered. -/
structure Follows (w : String) (s s' : Site Fleet) : Prop where
  accounted : s'.Accounted
  others : ∀ w', w' ≠ w → s'.document w' = s.document w'
  manifests : ∀ v, s'.store.entries.get? (workflowKey v) = s.store.entries.get? (workflowKey v)
  calm : s.side.fates = [] → s'.side.fates = []

theorem Follows.trans {w : String} {s s' s'' : Site Fleet} (h : Follows w s s')
    (h' : Follows w s' s'') : Follows w s s'' :=
  ⟨h'.accounted, fun w' hw => (h'.others w' hw).trans (h.others w' hw),
    fun v => (h'.manifests v).trans (h.manifests v), fun hcalm => h'.calm (h.calm hcalm)⟩

/-- Nothing has changed but what concerns one workflow. -/
structure Touched (w : String) (s s' : Site Fleet) : Prop where
  lasting : ∀ v, s'.store.TimelessAt (statusKey v)
  live : ∀ v, v ≠ w → ∀ t, s'.store.live? t (statusKey v) = s.store.live? t (statusKey v)
  agents : ∀ v p, v ≠ w → SameAt s.side s'.side v p
  manifests : ∀ v, s'.store.entries.get? (workflowKey v) = s.store.entries.get? (workflowKey v)
  calm : s.side.fates = [] → s'.side.fates = []

namespace Accounted

variable {s : Site Fleet}

theorem follows (h : s.Accounted) (w : String) : Follows w s s :=
  ⟨h, fun _ _ => rfl, fun _ => rfl, id⟩

/-- What is done to the store apart from status documents changes none of them. -/
theorem congr (h : s.Accounted) {s' : Site Fleet} (hside : s'.side = s.side)
    (hlasting : ∀ w, s'.store.TimelessAt (statusKey w))
    (hlive : ∀ w t, s'.store.live? t (statusKey w) = s.store.live? t (statusKey w)) :
    s'.Accounted ∧ ∀ w, s'.document w = s.document w := by
  have hdocument : ∀ w, s'.document w = s.document w := fun w =>
    document_congr (h.lasting w) (hlive w)
  refine ⟨⟨hside ▸ h.proper, hlasting, ?_, ?_, ?_⟩, hdocument⟩
  · intro w t e he
    rw [hlive] at he
    exact h.readable w t e he
  · intro w doc hdoc
    rw [hdocument] at hdoc
    exact h.own w doc hdoc
  · intro w
    rw [hside, hdocument]
    exact h.faithful w

/-- Time goes on. -/
theorem tick (h : s.Accounted) : s.tick.Accounted ∧ ∀ w, s.tick.document w = s.document w :=
  h.congr (tick_side s) (fun w => by simp [h.lasting w]) fun w t => by simp

/-- Looking a key up changes no document. -/
theorem find (h : s.Accounted) (now : Instant) (key : String) :
    ({ s with store := (s.store.find now key).2 } : Site Fleet).Accounted ∧
      ∀ w, ({ s with store := (s.store.find now key).2 } : Site Fleet).document w =
        s.document w :=
  h.congr rfl (fun w => Memory.timelessAt_find (h.lasting w) now key)
    fun w t => Memory.live?_find (h.lasting w) now key t

/-- The working copy that a call starts from. -/
theorem sound (_ : s.Accounted) (w : String) : (Applied.ofStatus? w (s.document w)).Sound :=
  sound_of_document rfl w

/-- The working copy that a call starts from has the name of the workflow. -/
theorem name (h : s.Accounted) (w : String) :
    (Applied.ofStatus? w (s.document w)).spec.name = w := by
  cases hdoc : s.document w with
  | none => rfl
  | some doc => exact h.own w doc hdoc

/-- Reading a document changes nothing. -/
theorem loadStatus (h : s.Accounted) (w : String) :
    Follows w s ((FleetControl.loadStatus w).exec (answer Fleet.side) s).2 := by
  have htick : Follows w s s.tick :=
    ⟨h.tick.1, fun w' _ => h.tick.2 w', fun v => by rw [tick_store], fun hcalm => by simpa using hcalm⟩
  by_cases hdatable : s.store.DatableAt s.tick.now (statusKey w)
  · cases hlive : s.store.live? s.tick.now (statusKey w) with
    | none =>
        rw [exec_loadStatus_of_not_live Fleet.side hlive hdatable]
        have hfind := h.tick.1.find s.tick.now (statusKey w)
        rw [tick_store] at hfind
        refine htick.trans ⟨hfind.1, fun w' _ => hfind.2 w', ?_, fun hcalm => hcalm⟩
        intro v
        rw [tick_store]
        rcases Memory.find_entries s.store s.tick.now (statusKey w) with heq | ⟨-, heq⟩
        · simp only [heq]
        · simp only [heq, KeyMap.get?_erase_of_ne _ (workflowKey_ne_statusKey v w)]
    | some e =>
        rw [exec_loadStatus_of_live Fleet.side hlive]
        exact htick
  · rw [exec_loadStatus_of_not_datable Fleet.side hdatable]
    exact htick

/-- What was read is the document of the site, as it still is. -/
theorem document_of_exec (h : s.Accounted) {w : String} {previous : Option WorkflowStatus}
    {s' : Site Fleet}
    (hload : (FleetControl.loadStatus w).exec (answer Fleet.side) s = (some (.ok previous), s')) :
    s'.document w = previous ∧ s'.store.DatableAt s.tick.now (statusKey w) := by
  obtain ⟨hdoc, hdatable, rfl⟩ := Site.document_of_exec Fleet.side hload
  refine ⟨?_, Memory.datableAt_find hdatable⟩
  rw [← hdoc]
  exact document_congr (h.lasting w) fun t => Memory.live?_find (h.lasting w) _ _ t

/-- Reading a document does not fail. -/
theorem loadStatus_ne_error (h : s.Accounted) (w : String) (e : ControlError) :
    ((FleetControl.loadStatus w).exec (answer Fleet.side) s).1 ≠ some (.error e) := by
  by_cases hdatable : s.store.DatableAt s.tick.now (statusKey w)
  · cases hlive : s.store.live? s.tick.now (statusKey w) with
    | none =>
        rw [exec_loadStatus_of_not_live Fleet.side hlive hdatable]
        simp
    | some entry =>
        obtain ⟨doc, hdoc⟩ := h.readable w _ entry hlive
        rw [exec_loadStatus_of_live Fleet.side hlive, hdoc]
        simp
  · rw [exec_loadStatus_of_not_datable Fleet.side hdatable]
    simp

/-- **Reading a document** changes nothing, and shows the document of the site unless it breaks off. -/
theorem loads (h : s.Accounted) (w : String) :
    ∃ s', Follows w s s' ∧
      ((FleetControl.loadStatus w).exec (answer Fleet.side) s = (none, s') ∨
        (FleetControl.loadStatus w).exec (answer Fleet.side) s = (some (.ok (s'.document w)), s') ∧
          s'.store.DatableAt s.tick.now (statusKey w)) := by
  have hread := h.loadStatus w
  have herror := h.loadStatus_ne_error w
  cases hload : (FleetControl.loadStatus w).exec (answer Fleet.side) s with
  | mk outcome s' =>
      rw [hload] at hread herror
      refine ⟨s', hread, ?_⟩
      cases outcome with
      | none => exact .inl rfl
      | some outcome =>
          cases outcome with
          | error e => exact absurd rfl (herror e)
          | ok previous =>
              obtain ⟨hdoc, hdatable⟩ := h.document_of_exec hload
              exact .inr ⟨by rw [hdoc], hdatable⟩

/-- **A step that touches one workflow only** keeps the documents true to the fleet, if it leaves the
document of that workflow so. -/
theorem follows_of_touched (h : s.Accounted) {s' : Site Fleet} {w : String} (htouched : Touched w s s')
    (hproper : s'.side.Proper)
    (hreadable : ∀ t e, s'.store.live? t (statusKey w) = some e →
      ∃ doc, WorkflowStatus.decode? e.data = some doc)
    (hown : ∀ doc, s'.document w = some doc → doc.name = w)
    (hfaithful : s'.side.Faithful w (.ofStatus? w (s'.document w))) : Follows w s s' := by
  have hothers : ∀ v, v ≠ w → s'.document v = s.document v := fun v hv =>
    document_congr (h.lasting v) (htouched.live v hv)
  refine ⟨⟨hproper, htouched.lasting, fun v t e he => ?_, fun v doc hdoc => ?_, fun v => ?_⟩,
    hothers, htouched.manifests, htouched.calm⟩
  · by_cases hv : v = w
    · subst hv
      exact hreadable t e he
    · rw [htouched.live v hv] at he
      exact h.readable v t e he
  · by_cases hv : v = w
    · subst hv
      exact hown doc hdoc
    · rw [hothers v hv] at hdoc
      exact h.own v doc hdoc
  · by_cases hv : v = w
    · subst hv
      exact hfaithful
    · rw [hothers v hv]
      exact (h.faithful v).congr fun p => htouched.agents v p hv

/-- A document that is true to the fleet can be written. -/
theorem saved (h : s.Accounted) {x : Fleet} (hx : x.Proper) {a : Applied} (hdated : a.Dated)
    {w : String} (hname : a.spec.name = w) (hfaithful : x.Faithful w a)
    (hothers : ∀ w' p, w' ≠ w → SameAt s.side x w' p)
    (hcalm : s.side.fates = [] → x.fates = []) :
    Follows w s (({ s with side := x } : Site Fleet).saved a) ∧
      ∃ t, (({ s with side := x } : Site Fleet).saved a).document w = some (a.toStatus t) := by
  subst hname
  have hread := Applied.reread_toStatus hdated ({ s with side := x } : Site Fleet).tick.now
  have hown := document_saved hread
  have hside : (({ s with side := x } : Site Fleet).saved a).side = x := by simp [Site.saved]
  refine ⟨h.follows_of_touched ⟨fun v => Memory.timelessAt_written (h.lasting v) _ _,
    fun v hv t => Memory.live?_written_of_ne _ _ _ fun heq => hv (statusKey_inj heq),
    hside.symm ▸ hothers, fun v => ?_, hside.symm ▸ hcalm⟩ (hside.symm ▸ hx) (fun t e he => ?_)
    (fun doc hdoc => ?_) ?_, _, hown⟩
  · simp only [Site.saved, Memory.written,
      KeyMap.get?_insert_of_ne _ (workflowKey_ne_statusKey v a.spec.name)]
  · simp only [Site.saved, Memory.live?_written_self] at he
    obtain rfl := Option.some.inj he
    exact ⟨_, hread⟩
  · rw [hown] at hdoc
    obtain rfl := Option.some.inj hdoc
    rfl
  · rw [hside, hown]
    exact hfaithful.reread _

/-- A document can be deleted if nothing of its workflow is held. -/
theorem removed (h : s.Accounted) {x : Fleet} (hx : x.Proper) {w : String} {e : Entry}
    (hentry : s.store.entries.get? (statusKey w) = some e)
    (hnone : ∀ name p, ¬ x.Holds name w p)
    (hothers : ∀ w' p, w' ≠ w → SameAt s.side x w' p)
    (hcalm : s.side.fates = [] → x.fates = []) :
    Follows w s (({ s with side := x } : Site Fleet).removed w e) ∧
      (({ s with side := x } : Site Fleet).removed w e).document w = none := by
  have hside : (({ s with side := x } : Site Fleet).removed w e).side = x := by
    simp [Site.removed]
  have hgone : ∀ t, (({ s with side := x } : Site Fleet).removed w e).store.live? t (statusKey w) =
      none := fun t => Memory.live?_deleted_self _ _ _ _ _
  have hown : (({ s with side := x } : Site Fleet).removed w e).document w = none := by
    unfold document
    rw [hgone, Option.bind_none]
  refine ⟨h.follows_of_touched ⟨fun v => Memory.timelessAt_deleted (h.lasting v) _ hentry,
    fun v hv t => Memory.live?_deleted_of_ne _ _ _ _ fun heq => hv (statusKey_inj heq),
    hside.symm ▸ hothers, fun v => ?_, hside.symm ▸ hcalm⟩ (hside.symm ▸ hx) (fun t e' he => ?_)
    (fun doc hdoc => ?_) ?_, hown⟩
  · simp only [Site.removed, Memory.deleted,
      KeyMap.get?_insert_of_ne _ (workflowKey_ne_statusKey v w)]
  · rw [hgone] at he
    cases he
  · rw [hown] at hdoc
    cases hdoc
  · rw [hside, hown]
    exact Fleet.faithful_empty hnone _

/-- Without a document of the workflow nobody holds anything of it. -/
theorem not_holds_of_no_document (h : s.Accounted) {w : String} (hdoc : s.document w = none)
    (name p : String) : ¬ s.side.Holds name w p := by
  intro hholds
  obtain ⟨named, ht⟩ := h.faithful w p
  rw [hdoc] at ht
  have hnamed := ht.holders name hholds
  have hslot : (Applied.ofStatus? w none).slot p = ⟨none, none, none⟩ := by
    simp [Applied.ofStatus?, Applied.empty, Applied.slot, WorkflowSpec.empty]
  rw [hslot] at ht
  cases ht.tells
  cases hnamed

end Accounted

end Site

end FleetControl
