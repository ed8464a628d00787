import FleetControl.Proofs.Workflow.Codec
import FleetControl.Status

/-!
# Status documents read back

A status document can only hold instants that their text can hold; a document that was read holds no
others, and so does one that is built from what was read and from the clock. Such a document reads
back as it was written. Reading restores the three conditions on documents, which costs nothing where
they hold: it leaves a document that was built by `ofParts` as it is.

* `WorkflowStatus.Dated` — every instant in the document is well formed;
* `WorkflowStatus.decode?_encode` — such a document reads back, up to those conditions;
* `WorkflowStatus.dated_of_decode?` — what was read is such a document;
* `WorkflowStatus.Coherent` — the three conditions;
* `WorkflowStatus.readable_iff` — the documents that can be read are those that read back, and those
  that are dated and coherent.
-/

namespace FleetControl

open JsonReader

namespace PipelineStatus

/-- The instant of the last run is well formed. -/
def Dated (s : PipelineStatus) : Prop := ∀ t, s.lastRun = some t → t.WellFormed

theorem dated_empty : empty.Dated := by
  intro t ht
  cases ht

theorem inverts : Inverts read toJson Dated 1 := by
  intro depth s hdepth hs
  have hinside := inside_of_lt hdepth
  obtain ⟨executor, status, lastRun⟩ := s
  simp only [read, hinside, toJson, Option.bind_eq_bind, Option.bind_some]
  cases executor <;> cases lastRun with
  | none => simp [Json.whenSome, slots, member?, withDefault, text, Inverts.optional_text]
  | some t =>
      simp [Json.whenSome, slots, member?, withDefault, text, Inverts.optional_text,
        Inverts.optional_instant _ (hs t rfl)]

theorem plain_toJson (s : PipelineStatus) : s.toJson.plain = true := by
  rw [toJson, Json.plain, Json.plainMembers_append, Json.plainMembers_append,
    Json.plainMembers_whenSome _ fun _ => rfl, Json.plainMembers_whenSome _ fun _ => rfl]
  rfl

/-- The status that was read has a well-formed instant. -/
theorem dated_of_read (depth : Nat) (j : Json) (s : PipelineStatus) (h : read depth j = some s) :
    s.Dated := by
  simp only [read, Option.bind_eq_bind] at h
  obtain ⟨depth, -, h⟩ := Option.bind_eq_some_iff.1 h
  obtain ⟨found, -, h⟩ := Option.bind_eq_some_iff.1 h
  split at h
  · obtain ⟨executor, -, h⟩ := Option.bind_eq_some_iff.1 h
    obtain ⟨status, -, h⟩ := Option.bind_eq_some_iff.1 h
    obtain ⟨lastRun, hlastRun, h⟩ := Option.bind_eq_some_iff.1 h
    obtain rfl := Option.some.inj h
    intro t ht
    exact wellFormed_of_withDefault hlastRun ht
  · cases h

end PipelineStatus

namespace UnconfirmedPipeline

theorem inverts : Inverts read toJson (fun u => u.status.Dated) 5 := by
  intro depth u hdepth hu
  have hinside := inside_of_lt (show 1 < depth by omega)
  have hspec := PipelineSpec.inverts (depth - 1) u.spec (by omega) trivial
  have hstatus := PipelineStatus.inverts (depth - 1) u.status (by omega) hu
  simp [read, hinside, toJson, slots, member?, required, hspec, hstatus]

theorem plain_toJson (u : UnconfirmedPipeline) : u.toJson.plain = true := by
  simp [toJson, Json.plain, Json.plainMembers, PipelineSpec.plain_toJson,
    PipelineStatus.plain_toJson]

/-- The status that was read has a well-formed instant. -/
theorem dated_of_read (depth : Nat) (j : Json) (u : UnconfirmedPipeline)
    (h : read depth j = some u) : u.status.Dated := by
  simp only [read, Option.bind_eq_bind] at h
  obtain ⟨depth, -, h⟩ := Option.bind_eq_some_iff.1 h
  obtain ⟨found, -, h⟩ := Option.bind_eq_some_iff.1 h
  split at h
  · obtain ⟨spec, -, h⟩ := Option.bind_eq_some_iff.1 h
    obtain ⟨status, hstatus, h⟩ := Option.bind_eq_some_iff.1 h
    obtain rfl := Option.some.inj h
    obtain ⟨j, hj⟩ : ∃ j, PipelineStatus.read depth j = some status := by
      unfold required at hstatus
      split at hstatus
      · exact ⟨_, hstatus⟩
      · cases hstatus
    exact PipelineStatus.dated_of_read depth j status hj
  · cases h

end UnconfirmedPipeline

namespace WorkflowStatus

/-- Every instant in the document is well formed. -/
structure Dated (s : WorkflowStatus) : Prop where
  pipelines : ∀ p status, s.pipelines.get? p = some status → status.Dated
  unconfirmed : ∀ p u, s.unconfirmed.get? p = some u → u.status.Dated
  updatedAt : ∀ t, s.updatedAt = some t → t.WellFormed

theorem inverts : Inverts read toJson Dated 7 := by
  intro depth s hdepth hs
  have hinside := inside_of_lt (show 1 < depth by omega)
  have hspec := WorkflowSpec.inverts (depth - 1) s.spec (by omega) trivial
  have hpipelines := PipelineStatus.inverts.map (depth - 1) s.pipelines (by omega) hs.pipelines
  have hunconfirmed := UnconfirmedPipeline.inverts.map (depth - 1) s.unconfirmed (by omega)
    hs.unconfirmed
  have hdated := hs.updatedAt
  obtain ⟨spec, pipelines, unconfirmed, updatedAt⟩ := s
  simp only [read, hinside, toJson, Option.bind_eq_bind, Option.bind_some]
  have hempty : unconfirmed.isEmpty = true → unconfirmed = .empty := KeyMap.eq_empty_of_isEmpty
  cases hu : unconfirmed.isEmpty <;> cases updatedAt with
  | none => simp_all [Json.unless, Json.whenSome, slots, member?, required, withDefault]
  | some t =>
      have ht := Inverts.optional_instant (depth - 1) (hdated t rfl)
      simp_all [Json.unless, Json.whenSome, slots, member?, required, withDefault]

theorem plain_toJson (s : WorkflowStatus) : s.toJson.plain = true := by
  rw [toJson, Json.plain, Json.plainMembers_append, Json.plainMembers_append,
    Json.plainMembers_unless _ _ (Json.plain_ofMap UnconfirmedPipeline.plain_toJson _),
    Json.plainMembers_whenSome _ fun _ => rfl]
  simp [Json.plainMembers, WorkflowSpec.plain_toJson,
    Json.plain_ofMap PipelineStatus.plain_toJson]

/-- **A document reads back**, up to the three conditions. -/
theorem decode?_encode {s : WorkflowStatus} (h : s.Dated) :
    decode? s.encode = some (ofParts s.spec s.pipelines s.unconfirmed s.updatedAt) := by
  have hread := inverts Json.levels s (by decide) h
  rw [decode?, encode, Json.parse_bytes s.plain_toJson, Option.bind_some, run, hread]
  rfl

/-- The values of a map that may be missing come from values that were read. -/
private theorem of_withDefault_map {α : Type} {r : JsonReader α} {good : α → Prop}
    (h : ∀ depth j a, r depth j = some a → good a) {depth : Nat} {slot : Slot} {m : KeyMap α}
    (hm : withDefault (JsonReader.map r) .empty depth slot = some m) {k : String} {a : α}
    (hk : m.get? k = some a) : good a := by
  cases slot with
  | given j => exact of_map_read h hm hk
  | absent =>
      obtain rfl : KeyMap.empty = m := Option.some.inj hm
      simp at hk
  | cut =>
      obtain rfl : KeyMap.empty = m := Option.some.inj hm
      simp at hk

/-- The document that was read has well-formed instants only. -/
theorem dated_of_read (depth : Nat) (j : Json) (s : WorkflowStatus) (h : read depth j = some s) :
    s.Dated := by
  simp only [read, Option.bind_eq_bind] at h
  obtain ⟨depth, -, h⟩ := Option.bind_eq_some_iff.1 h
  obtain ⟨found, -, h⟩ := Option.bind_eq_some_iff.1 h
  split at h
  · obtain ⟨spec, -, h⟩ := Option.bind_eq_some_iff.1 h
    obtain ⟨pipelines, hpipelines, h⟩ := Option.bind_eq_some_iff.1 h
    obtain ⟨unconfirmed, hunconfirmed, h⟩ := Option.bind_eq_some_iff.1 h
    obtain ⟨updatedAt, hupdatedAt, h⟩ := Option.bind_eq_some_iff.1 h
    obtain rfl := Option.some.inj h
    refine ⟨?_, ?_, ?_⟩
    · intro p status hp
      exact of_withDefault_map PipelineStatus.dated_of_read hpipelines hp
    · intro p u hp
      exact @of_withDefault_map _ _ (fun u => u.status.Dated) UnconfirmedPipeline.dated_of_read _ _ _
        hunconfirmed _ _ hp
    · intro t ht
      exact wellFormed_of_withDefault hupdatedAt ht
  · cases h

/-- Restoring the conditions drops values and changes none. -/
theorem dated_ofParts {spec : WorkflowSpec} {pipelines : KeyMap PipelineStatus}
    {unconfirmed : KeyMap UnconfirmedPipeline} {updatedAt : Option Instant}
    (hpipelines : ∀ p status, pipelines.get? p = some status → status.Dated)
    (hunconfirmed : ∀ p u, unconfirmed.get? p = some u → u.status.Dated)
    (hupdatedAt : ∀ t, updatedAt = some t → t.WellFormed) :
    (ofParts spec pipelines unconfirmed updatedAt).Dated := by
  refine ⟨?_, ?_, hupdatedAt⟩
  · intro p status hp
    rw [ofParts, KeyMap.get?_filter] at hp
    exact hpipelines p status (Option.filter_eq_some_iff.1 hp).1
  · intro p u hp
    rw [ofParts, KeyMap.get?_filter] at hp
    exact hunconfirmed p u (Option.filter_eq_some_iff.1 hp).1

/-- **What was read holds well-formed instants only.** -/
theorem dated_of_decode? {bytes : Bytes} {s : WorkflowStatus} (h : decode? bytes = some s) :
    s.Dated := by
  obtain ⟨raw, hraw, rfl⟩ := Option.map_eq_some_iff.1 h
  obtain ⟨j, -, hread⟩ := Option.bind_eq_some_iff.1 hraw
  have hdated := dated_of_read Json.levels j raw hread
  exact dated_ofParts hdated.pipelines hdated.unconfirmed hdated.updatedAt

/-! ## Coherent documents -/

/-- The three conditions on documents. -/
structure Coherent (s : WorkflowStatus) : Prop where
  /-- Statuses belong to pipelines of the spec. -/
  within : ∀ p, s.pipelines.contains p = true → s.spec.pipelines.contains p = true
  /-- Unconfirmed pipelines lie outside the spec. -/
  apart : ∀ p, s.unconfirmed.contains p = true → s.spec.pipelines.contains p = false
  /-- An unconfirmed pipeline names the agent that was asked. -/
  asked : ∀ p u, s.unconfirmed.get? p = some u → u.status.executor.isSome = true

/-- What is built with the conditions is coherent. -/
theorem coherent_ofParts (spec : WorkflowSpec) (pipelines : KeyMap PipelineStatus)
    (unconfirmed : KeyMap UnconfirmedPipeline) (updatedAt : Option Instant) :
    (ofParts spec pipelines unconfirmed updatedAt).Coherent := by
  have hkept : ∀ p u, (ofParts spec pipelines unconfirmed updatedAt).unconfirmed.get? p = some u →
      spec.pipelines.contains p = false ∧ u.status.executor.isSome = true := by
    intro p u hp
    rw [ofParts, KeyMap.get?_filter] at hp
    simpa using (Option.filter_eq_some_iff.1 hp).2
  refine ⟨?_, ?_, fun p u hp => (hkept p u hp).2⟩
  · intro p hp
    obtain ⟨status, hstatus⟩ := Option.isSome_iff_exists.1 hp
    rw [ofParts, KeyMap.get?_filter] at hstatus
    exact (Option.filter_eq_some_iff.1 hstatus).2
  · intro p hp
    obtain ⟨u, hu⟩ := Option.isSome_iff_exists.1 hp
    exact (hkept p u hu).1

/-- Restoring the conditions leaves a coherent document as it is. -/
theorem Coherent.ofParts_eq {s : WorkflowStatus} (h : s.Coherent) :
    ofParts s.spec s.pipelines s.unconfirmed s.updatedAt = s := by
  have hpipelines : s.pipelines.filter (fun p _ => s.spec.pipelines.contains p) = s.pipelines := by
    apply KeyMap.ext_get?
    intro p
    rw [KeyMap.get?_filter]
    cases hp : s.pipelines.get? p with
    | none => rfl
    | some status =>
        have hwithin := h.within p (by simp [KeyMap.contains, hp])
        rw [Option.filter_some, if_pos hwithin]
  have hunconfirmed : s.unconfirmed.filter (fun p u =>
      !s.spec.pipelines.contains p && u.status.executor.isSome) = s.unconfirmed := by
    apply KeyMap.ext_get?
    intro p
    rw [KeyMap.get?_filter]
    cases hp : s.unconfirmed.get? p with
    | none => rfl
    | some u =>
        have hapart := h.apart p (by simp [KeyMap.contains, hp])
        rw [Option.filter_some, if_pos (by rw [hapart, h.asked p u hp]; rfl)]
  rw [ofParts, hpipelines, hunconfirmed]

/-- The three conditions hold of a document that was built with them, so building it again changes
nothing. -/
theorem ofParts_ofParts (spec : WorkflowSpec) (pipelines : KeyMap PipelineStatus)
    (unconfirmed : KeyMap UnconfirmedPipeline) (updatedAt : Option Instant) :
    ofParts spec (ofParts spec pipelines unconfirmed updatedAt).pipelines
        (ofParts spec pipelines unconfirmed updatedAt).unconfirmed updatedAt =
      ofParts spec pipelines unconfirmed updatedAt :=
  (coherent_ofParts spec pipelines unconfirmed updatedAt).ofParts_eq

/-- A document that was read is coherent. -/
theorem coherent_of_decode? {bytes : Bytes} {s : WorkflowStatus} (h : decode? bytes = some s) :
    s.Coherent := by
  obtain ⟨raw, -, rfl⟩ := Option.map_eq_some_iff.1 h
  exact coherent_ofParts _ _ _ _

/-- **A document can be read exactly if it reads back**, and exactly if it is dated and coherent. -/
theorem readable_iff (s : WorkflowStatus) :
    ((∃ bytes, decode? bytes = some s) ↔ s.Dated ∧ s.Coherent) ∧
      (decode? s.encode = some s ↔ s.Dated ∧ s.Coherent) := by
  have hback : s.Dated ∧ s.Coherent → decode? s.encode = some s := by
    rintro ⟨hdated, hcoherent⟩
    rw [decode?_encode hdated, hcoherent.ofParts_eq]
  have hread : ∀ bytes, decode? bytes = some s → s.Dated ∧ s.Coherent := fun bytes h =>
    ⟨dated_of_decode? h, coherent_of_decode? h⟩
  exact ⟨⟨fun ⟨bytes, h⟩ => hread bytes h, fun h => ⟨s.encode, hback h⟩⟩, hread s.encode, hback⟩

end WorkflowStatus

end FleetControl
