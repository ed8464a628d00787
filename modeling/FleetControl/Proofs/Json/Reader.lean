import FleetControl.Json.Printer
import FleetControl.Proofs.Instant.Text
import FleetControl.Proofs.Json.RoundTrip
import FleetControl.Proofs.KeyMap
import FleetControl.Status

/-!
# Readers and what was written

A reader inverts a writer down to a depth if it gives back every value from the tree that was
written for it, as long as that many levels are left. Lists and maps take over the property from
their elements, one level further up.

* `Inverts` — the property, for the values that satisfy a condition;
* `Inverts.list`, `Inverts.map` — the containers.
-/

namespace FleetControl

open JsonReader

variable {α : Type}

/-- A reader gives back the values that satisfy a condition, as long as more than `levels` levels
are left. -/
def Inverts (read : JsonReader α) (write : α → Json) (good : α → Prop) (levels : Nat) : Prop :=
  ∀ (depth : Nat) (a : α), levels < depth → good a → read depth (write a) = some a

namespace Inverts

/-- Strings read back. -/
theorem text : Inverts JsonReader.text Json.text (fun _ => True) 0 := by
  intro depth s _ _
  rfl

/-- A string that is there reads back through the reader that also takes `null`. -/
theorem optional_text (depth : Nat) (s : String) :
    JsonReader.optional JsonReader.text depth (.text s) = some (some s) := rfl

/-- A well-formed instant reads back through the reader that also takes `null`. -/
theorem optional_instant (depth : Nat) {t : Instant} (h : t.WellFormed) :
    JsonReader.optional JsonReader.instant depth (Json.instant t) = some (some t) := by
  simp [JsonReader.optional, Json.instant, JsonReader.instant, Instant.parse?_text h]

/-- Lists read back. -/
theorem list {read : JsonReader α} {write : α → Json} {good : α → Prop} {levels : Nat}
    (h : Inverts read write good levels) :
    Inverts (JsonReader.list read) (fun l => .array (l.map write)) (fun l => ∀ a ∈ l, good a)
      (levels + 1) := by
  intro depth l hdepth hl
  have hinside : inside depth = some (depth - 1) := by
    rw [inside, if_neg (by omega)]
  have hitems : (l.map write).mapM (read (depth - 1)) = some l := by
    induction l with
    | nil => rfl
    | cons a rest ih =>
        have ha := h (depth - 1) a (by omega) (hl a (by simp))
        have hrest := ih fun b hb => hl b (by simp [hb])
        simp [List.mapM_cons, ha, hrest]
  simp only [JsonReader.list, hinside, Option.bind_some, hitems]

/-- Maps read back. -/
theorem map {read : JsonReader α} {write : α → Json} {good : α → Prop} {levels : Nat}
    (h : Inverts read write good levels) :
    Inverts (JsonReader.map read) (Json.ofMap write) (fun m => ∀ k a, m.get? k = some a → good a)
      (levels + 1) := by
  intro depth m hdepth hm
  have hinside : inside depth = some (depth - 1) := by
    rw [inside, if_neg (by omega)]
  have hmembers : ∀ l : List (String × α), (∀ x ∈ l, good x.2) →
      ((l.map fun x => (x.1, write x.2)).mapM fun x =>
        (read (depth - 1) x.2).map fun a => (x.1, a)) = some l := by
    intro l hl
    induction l with
    | nil => rfl
    | cons x rest ih =>
        have hx := h (depth - 1) x.2 (by omega) (hl x (by simp))
        have hrest := ih fun y hy => hl y (by simp [hy])
        simp [List.mapM_cons, hx, hrest]
  have hgood : ∀ x ∈ m.toList, good x.2 := fun x hx => hm x.1 x.2 ((m.mem_toList_iff x.1 x.2).1 hx)
  simp only [JsonReader.map, Json.ofMap, hinside, Option.bind_some, hmembers _ hgood,
    Option.map_some, KeyMap.ofList_toList]

/-- A map of strings reads back. -/
theorem labels : Inverts (JsonReader.map JsonReader.text) Json.labels (fun _ => True) 1 := by
  intro depth m hdepth _
  exact Inverts.text.map depth m hdepth fun _ _ _ => trivial

/-- A list of strings reads back. -/
theorem texts : Inverts (JsonReader.list JsonReader.text) Json.texts (fun _ => True) 1 := by
  intro depth l hdepth _
  exact Inverts.text.list depth l hdepth fun _ _ => trivial

end Inverts

/-! ## Where what was read comes from -/

/-- Every value of a map that was read was read from a value. -/
theorem of_map_read {read : JsonReader α} {good : α → Prop}
    (h : ∀ depth j a, read depth j = some a → good a) {depth : Nat} {j : Json} {m : KeyMap α}
    (hm : JsonReader.map read depth j = some m) {k : String} {a : α} (hk : m.get? k = some a) :
    good a := by
  cases j with
  | object members =>
      simp only [JsonReader.map] at hm
      obtain ⟨inner, -, hread⟩ := Option.bind_eq_some_iff.1 hm
      obtain ⟨l, hl, rfl⟩ := Option.map_eq_some_iff.1 hread
      have hmem := KeyMap.mem_of_get?_ofList hk
      clear hk hm hread
      induction members generalizing l with
      | nil =>
          obtain rfl : [] = l := by simpa using hl
          simp at hmem
      | cons x rest ih =>
          rw [List.mapM_cons] at hl
          obtain ⟨y, hy, hl⟩ := Option.bind_eq_some_iff.1 hl
          obtain ⟨ys, hys, hl⟩ := Option.bind_eq_some_iff.1 hl
          obtain rfl : y :: ys = l := by simpa using hl
          obtain ⟨b, hb, rfl⟩ := Option.map_eq_some_iff.1 hy
          rcases List.mem_cons.1 hmem with heq | hmem
          · obtain ⟨-, rfl⟩ := Prod.mk.inj heq
            exact h inner x.2 a hb
          · exact ih ys hys hmem
  | _ => simp [JsonReader.map] at hm

/-- An instant that was read, if there was one, is well formed. -/
theorem wellFormed_of_withDefault {depth : Nat} {slot : Slot} {found : Option Instant}
    (h : withDefault (JsonReader.optional JsonReader.instant) none depth slot = some found)
    {t : Instant} (ht : found = some t) : t.WellFormed := by
  subst ht
  cases slot with
  | given j =>
      cases j with
      | text s =>
          have hparse : (Instant.parse? s).map some = some (some t) := h
          obtain ⟨t', ht', heq⟩ := Option.map_eq_some_iff.1 hparse
          rw [← Option.some.inj heq]
          exact Instant.wellFormed_of_parse? ht'
      | _ => simp [withDefault, JsonReader.optional, JsonReader.instant] at h
  | absent => cases h
  | cut => cases h

/-! ## Plain documents -/

theorem Json.plain_texts (l : List String) : (Json.texts l).plain = true := by
  rw [Json.texts, Json.plain, Json.plainItems_iff]
  intro j hj
  obtain ⟨s, -, rfl⟩ := List.mem_map.1 hj
  rfl

theorem Json.plain_ofMap {write : α → Json} (h : ∀ a, (write a).plain = true) (m : KeyMap α) :
    (Json.ofMap write m).plain = true := by
  rw [Json.ofMap, Json.plain, Json.plainMembers_iff]
  intro x hx
  obtain ⟨y, -, rfl⟩ := List.mem_map.1 hx
  exact h y.2

theorem Json.plain_array {write : α → Json} (h : ∀ a, (write a).plain = true) (l : List α) :
    (Json.array (l.map write)).plain = true := by
  rw [Json.plain, Json.plainItems_iff]
  intro j hj
  obtain ⟨a, -, rfl⟩ := List.mem_map.1 hj
  exact h a

theorem Json.plain_labels (m : KeyMap String) : (Json.labels m).plain = true :=
  Json.plain_ofMap (fun _ => rfl) m

theorem Json.plainMembers_append (l l' : List (String × Json)) :
    Json.plainMembers (l ++ l') = (Json.plainMembers l && Json.plainMembers l') := by
  induction l with
  | nil => simp [Json.plainMembers]
  | cons m rest ih => simp [Json.plainMembers, ih, Bool.and_assoc]

theorem Json.plainMembers_unless (skip : Bool) (key : String) {j : Json} (h : j.plain = true) :
    Json.plainMembers (Json.unless skip key j) = true := by
  cases skip <;> simp [Json.unless, Json.plainMembers, h]

theorem Json.plainMembers_whenSome (key : String) {write : α → Json}
    (h : ∀ a, (write a).plain = true) (o : Option α) :
    Json.plainMembers (Json.whenSome key write o) = true := by
  cases o <;> simp [Json.whenSome, Json.plainMembers, h]

end FleetControl
