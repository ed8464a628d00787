import FleetControl.Error

/-!
# Failures of callbacks and passes

A failure tells its causes, the outermost first, and is shown as one line with colons between them.
An error of the control plane that wraps another one has that one's words among its causes, so they
are shown twice: once inside the outer words and once on their own.
-/

namespace FleetControl

/-- A failure by its causes, the outermost first. -/
structure Failure where
  causes : List String
  deriving DecidableEq, Repr, Inhabited

/-- The causes on one line. -/
def Failure.text (f : Failure) : String := ": ".intercalate f.causes

/-- A failure with one cause. -/
def Failure.ofText (text : String) : Failure := ⟨[text]⟩

/-- A store error as a failure. -/
def StoreError.failure (e : StoreError) : Failure := .ofText e.message

/-- The causes of an error of the runtime. -/
def RuntimeError.causes (e : RuntimeError) : List String :=
  e.message :: match e with
    | .store inner => [inner.message]
    | _ => []

/-- The causes of an error of the control plane. -/
def ControlError.causes (e : ControlError) : List String :=
  e.message :: match e with
    | .config inner => [inner.message]
    | .runtime inner => inner.causes
    | .store inner => [inner.message]
    | .invalid inner => [inner.message]
    | .agent inner => [inner.message]
    | _ => []

/-- An error of the control plane as a failure. -/
def ControlError.failure (e : ControlError) : Failure := ⟨e.causes⟩

end FleetControl
