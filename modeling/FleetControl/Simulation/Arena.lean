/-!
# Numbered objects

Objects of a simulated world are told apart by the number under which they were added; a name may
pass from one to another, the number never does.
-/

namespace FleetControl.Simulation

/-- Objects in the order in which they were added. -/
structure Arena (α : Type) where
  items : List α

namespace Arena

variable {α : Type}

/-- No objects. -/
def empty : Arena α := ⟨[]⟩

/-- Add an object; its number. -/
def add (a : Arena α) (x : α) : Nat × Arena α := (a.items.length, ⟨a.items ++ [x]⟩)

/-- The object of a number. -/
def get? (a : Arena α) (id : Nat) : Option α := a.items[id]?

/-- Change the object of a number. -/
def modify (a : Arena α) (id : Nat) (f : α → α) : Arena α := ⟨a.items.modify id f⟩

/-- The number of objects. -/
def size (a : Arena α) : Nat := a.items.length

end Arena

end FleetControl.Simulation
