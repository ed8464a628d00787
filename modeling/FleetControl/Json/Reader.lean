import FleetControl.Instant.Text
import FleetControl.Json.Embedded

/-!
# Typed readers of JSON

A reader turns a tree into a typed value, or refuses it. It is told how many containers may still be
opened on the way down, because a document may nest only 127 deep where it is read; what nobody
reads may be as deep as it likes.

Records are read from objects or from arrays. In an object the members may come in any order,
members with other names are skipped, and a repeated member is refused. In an array the values come
in the order of declaration, and there may be none beyond them. `Slot` says how a field was found,
and the field's own reader decides what a missing one means.
-/

namespace FleetControl

/-- A reader of values of type `α`: how many levels of nesting are left, then the tree. -/
abbrev JsonReader (α : Type) := Nat → Json → Option α

namespace JsonReader

variable {α : Type}

/-- Read a whole document. -/
def run (r : JsonReader α) (j : Json) : Option α := r Json.levels j

/-- The levels left inside a container. -/
def inside (depth : Nat) : Option Nat := if depth ≤ 1 then none else some (depth - 1)

/-! ## Plain values -/

/-- A string. -/
def text : JsonReader String
  | _, .text s => some s
  | _, _ => none

/-- A truth value. -/
def bool : JsonReader Bool
  | _, .bool b => some b
  | _, _ => none

/-- A natural number of at most `limit`, written without fraction or exponent. -/
def natural (limit : Nat) : JsonReader Nat
  | _, .number (.natural n) => if n ≤ limit then some n else none
  | _, _ => none

/-- An instant, as RFC 3339 text. -/
def instant : JsonReader Instant
  | _, .text s => Instant.parse? s
  | _, _ => none

/-- A value or `null`. -/
def optional (r : JsonReader α) : JsonReader (Option α)
  | _, .null => some none
  | depth, j => (r depth j).map some

/-! ## Containers -/

/-- Every item of an array. -/
def list (r : JsonReader α) : JsonReader (List α)
  | depth, .array items => (inside depth).bind fun depth => items.mapM (r depth)
  | _, _ => none

/-- Every member of an object as an entry of a map; of repeated keys the last wins. -/
def map (r : JsonReader α) : JsonReader (KeyMap α)
  | depth, .object members =>
    (inside depth).bind fun depth =>
      (members.mapM fun m => (r depth m.2).map fun a => (m.1, a)).map KeyMap.ofList
  | _, _ => none

/-- Any value, in sorted form, with the documents in it that are given as text. -/
def any : JsonReader Json
  | depth, j => if j.readable depth then (j.expand Json.openText).map Json.sorted else none

/-! ## Records -/

/-- How a field of a record was found. -/
inductive Slot where
  /-- It was given. -/
  | given (j : Json)
  /-- The object has no such member. -/
  | absent
  /-- The array ended before it. -/
  | cut

/-- The one member with a name, if the name is not repeated. -/
def member? (members : List (String × Json)) (name : String) : Option Slot :=
  match members.filter fun m => m.1 == name with
  | [] => some .absent
  | [m] => some (.given m.2)
  | _ => none

/-- The fields of a record, in the order of their names. -/
def slots (names : List String) : Json → Option (List Slot)
  | .object members => names.mapM (member? members)
  | .array items =>
    if items.length ≤ names.length then
      some (items.map .given ++ List.replicate (names.length - items.length) .cut)
    else none
  | _ => none

/-- A field that must be there. -/
def required (r : JsonReader α) (depth : Nat) : Slot → Option α
  | .given j => r depth j
  | _ => none

/-- A field that has a value of its own when it is missing. -/
def withDefault (r : JsonReader α) (fallback : α) (depth : Nat) : Slot → Option α
  | .given j => r depth j
  | _ => some fallback

/-- A field that an object may leave out and an array may not. -/
def nullable (r : JsonReader α) (depth : Nat) : Slot → Option (Option α)
  | .given j => optional r depth j
  | .absent => some none
  | .cut => none

end JsonReader

end FleetControl
