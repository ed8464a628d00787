import FleetControl.Json.Basic

/-!
# What a reader can take in

A document may nest only 127 deep where it is read, and some of its values denote nothing.
`readable` says of a value whether a reader that wants all of it gets through.
-/

namespace FleetControl.Json

/-- The levels that a whole document starts with; the container that would use up the last is
refused. -/
def levels : Nat := 128

mutual

/-- Whether everything in a value can be read within the levels left. -/
def readable : Nat → Json → Bool
  | _, .unreadable => false
  | depth, .array items => decide (1 < depth) && readableItems (depth - 1) items
  | depth, .object members => decide (1 < depth) && readableMembers (depth - 1) members
  | _, _ => true

/-- Whether every item can be read. -/
def readableItems : Nat → List Json → Bool
  | _, [] => true
  | depth, j :: rest => readable depth j && readableItems depth rest

/-- Whether every member's value can be read. -/
def readableMembers : Nat → List (String × Json) → Bool
  | _, [] => true
  | depth, (_, j) :: rest => readable depth j && readableMembers depth rest

end

end FleetControl.Json
