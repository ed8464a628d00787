import FleetControl.Placement

/-!
# Settings

What the environment may set: the database file, two intervals, the deadline of an agent call and
the placement policy. A variable whose value is not UTF-8 counts as unset. The settings are judged
in a fixed order, so of several unusable ones the first is named.
-/

namespace FleetControl

/-- The settings of a control plane. -/
structure Config where
  databasePath : String
  /-- The wait between informer passes. -/
  informerInterval : Span
  /-- The wait between cache sweeps. -/
  sweepInterval : Span
  /-- The deadline of an agent call. -/
  dispatchTimeout : Span
  placement : PlacementKind
  deriving DecidableEq, Repr, Inhabited

/-- What is wrong with a value. -/
inductive ConfigFault where
  | notSeconds (value : String) (fault : Text.NumberFault)
  | notPositive
  | unknownPlacement (known : String)
  deriving DecidableEq, Repr

/-- The fault in words. -/
def ConfigFault.message : ConfigFault → String
  | .notSeconds value fault =>
    Text.quoted value ++ " is not a number of seconds: " ++ fault.message
  | .notPositive => "must be greater than zero"
  | .unknownPlacement known => PlacementKind.unknownName known

/-- A setting with an unusable value. -/
structure ConfigError where
  setting : String
  fault : ConfigFault
  deriving DecidableEq, Repr

/-- The error in words. -/
def ConfigError.message (e : ConfigError) : String :=
  "Invalid value for " ++ e.setting ++ ": " ++ e.fault.message

namespace Config

/-- The variable that sets the file of the database. -/
def databaseVariable : String := "CONVOY_DATABASE_PATH"

/-- The variable that sets the wait between informer passes. -/
def informerVariable : String := "CONVOY_INFORMER_INTERVAL_SECS"

/-- The variable that sets the wait between cache sweeps. -/
def sweepVariable : String := "CONVOY_CACHE_SWEEP_INTERVAL_SECS"

/-- The variable that sets the deadline of an agent call. -/
def timeoutVariable : String := "CONVOY_DISPATCH_TIMEOUT_SECS"

/-- The variable that sets the placement policy. -/
def placementVariable : String := "CONVOY_PLACEMENT"

/-- The settings of an empty environment. -/
def standard : Config :=
  ⟨".data/convoy.db", .ofSeconds 15, .ofSeconds 30, .ofSeconds 30, .roundRobin⟩

/-- A number of seconds of 64 bits, blanks around it apart. -/
def seconds (setting value : String) : Except ConfigError Span :=
  match Text.readUnsigned Word.max64 (Text.trimChars value.toList) with
  | .ok n => .ok (.ofSeconds n)
  | .error fault => .error ⟨setting, .notSeconds value fault⟩

/-- The settings of an environment. -/
def ofEnvironment (env : KeyMap Bytes) : Except ConfigError Config := do
  let value (setting : String) : Option String := (env.get? setting).bind Utf8.decodeText?
  let span (setting : String) (fallback : Span) : Except ConfigError Span :=
    match value setting with
    | some text => seconds setting text
    | none => .ok fallback
  let informerInterval ← span informerVariable standard.informerInterval
  let sweepInterval ← span sweepVariable standard.sweepInterval
  let dispatchTimeout ← span timeoutVariable standard.dispatchTimeout
  if dispatchTimeout.isZero then .error ⟨timeoutVariable, .notPositive⟩
  else do
    let placement ←
      match value placementVariable with
      | none => .ok standard.placement
      | some text =>
        match PlacementKind.ofName text with
        | .ok kind => .ok kind
        | .error known => .error ⟨placementVariable, .unknownPlacement known⟩
    .ok ⟨(value databaseVariable).getD standard.databasePath, informerInterval, sweepInterval,
      dispatchTimeout, placement⟩

end Config

end FleetControl
