import FleetControl.Text.Blank
import FleetControl.Text.Digits
import FleetControl.Text.Replace

/-!
# Cron schedules

Which schedules a cron trigger may carry. A schedule has five fields, minute, hour, day, month and
weekday, each a list of values, ranges (`1-5`), steps (`*/10`), the closest working day (`15w`), the
last of something (`l`) and, for weekdays, the n-th one of the month (`5#2`). Months and weekdays
may be named, and `@daily` and its like stand for whole schedules. Seconds are not accepted.

* `check` — accepts a schedule or says what is wrong with it; fields are judged from left to right,
  and in a field the parts from left to right.
-/

namespace FleetControl.Cron

open FleetControl.Text

/-- What is wrong with one field. -/
inductive FieldFault where
  | nthInvalid
  | nthOutOfBounds
  | nthNotAllowed
  | lastNotAllowed
  | markUnsupported (mark supported : Nat)
  | stepSplit
  | stepInvalid
  | stepZero
  | stepRangeSplit
  | stepRangeStart
  | stepRangeEnd
  | stepStart
  | stepOutOfBounds
  | stepOverflow
  | rangeSplit
  | rangeStart
  | rangeEnd
  | rangeOutOfBounds
  | workdayInvalid
  | workdayOutOfBounds
  | numberInvalid
  | numberOutOfBounds
  deriving DecidableEq, Repr

/-- What is wrong with a schedule. -/
inductive Fault where
  | blank
  | fieldCount
  | seconds
  | field (f : FieldFault)
  deriving DecidableEq, Repr

/-- Eight binary digits. -/
def binary8 (n : Nat) : String :=
  let ds := Nat.toDigits 2 n
  String.ofList (List.replicate (8 - ds.length) '0' ++ ds)

/-- The fault of a field in words. -/
def FieldFault.message : FieldFault → String
  | .nthInvalid => "Invalid nth specifier."
  | .nthOutOfBounds => "Nth specifier out of bounds."
  | .nthNotAllowed => "Nth specifier # not allowed in the current field."
  | .lastNotAllowed => "L not allowed in the current field."
  | .markUnsupported mark supported =>
    "Bit 0b" ++ binary8 mark ++ " is not supported by the current features 0b" ++
      binary8 supported ++ "."
  | .stepSplit => "Invalid stepped range syntax."
  | .stepInvalid => "Invalid step."
  | .stepZero => "Step cannot be zero."
  | .stepRangeSplit => "Invalid range syntax in stepping."
  | .stepRangeStart => "Invalid range start."
  | .stepRangeEnd => "Invalid range end."
  | .stepStart => "Invalid start."
  | .stepOutOfBounds => "Range is out of bounds in stepping."
  | .stepOverflow => "Value exceeded max after stepping."
  | .rangeSplit => "Invalid range syntax."
  | .rangeStart => "Invalid start of range."
  | .rangeEnd => "Invalid end of range."
  | .rangeOutOfBounds => "Range out of bounds."
  | .workdayInvalid => "Invalid day for closest weekday."
  | .workdayOutOfBounds => "Day for closest weekday out of bounds."
  | .numberInvalid => "Invalid number."
  | .numberOutOfBounds => "Number out of bounds."

/-- The fault in words. -/
def Fault.message : Fault → String
  | .blank => "CronPattern cannot be an empty string."
  | .fieldCount =>
    "Invalid pattern: Pattern must consist of five or six fields (minute, hour, day, month, " ++
      "day of week, and optional second)."
  | .seconds =>
    "Invalid pattern: Pattern must consist of five fields, seconds are not allowed by " ++
      "configuration."
  | .field f => "Component error: " ++ f.message

/-! ## One field -/

/-- The mark of the closest working day. -/
def workdayMark : Nat := 0b10000000

/-- The mark of the last of something. -/
def lastMark : Nat := 0b01000000

/-- A field: its bounds and the marks that its values may carry. -/
structure Field where
  low : Nat
  high : Nat
  marks : Nat
  weekday : Bool

/-- Minutes. -/
def Field.minute : Field := ⟨0, 59, 0b01000001, false⟩

/-- Hours. -/
def Field.hour : Field := ⟨0, 23, 0b01000001, false⟩

/-- Days of the month. -/
def Field.day : Field := ⟨1, 31, 0b11000001, false⟩

/-- Months. -/
def Field.month : Field := ⟨1, 12, 0b01000001, false⟩

/-- Days of the week; Sunday is both zero and seven. -/
def Field.dayOfWeek : Field := ⟨0, 7, 0b01111111, true⟩

/-- The fields of a schedule from left to right. -/
def Field.all : List Field := [.minute, .hour, .day, .month, .dayOfWeek]

/-- Whether values of the field may carry a mark. -/
def Field.supports (f : Field) (mark : Nat) : Bool := f.marks &&& mark == mark

/-- A number of at most 255, or the given fault. -/
def byte (fault : FieldFault) (cs : List Char) : Except FieldFault Nat :=
  match readUnsigned 255 cs with
  | .ok n => .ok n
  | .error _ => .error fault

/-- The mark at the end of a part, and the part without it: `#3` asks for the third one of the
month, `#l` and `l` for the last. -/
def nth (cs : List Char) : Except FieldFault (Option Nat × List Char) := do
  let body := cs.takeWhile (· != '#')
  if cs.getLast? == some 'l' || cs.getLast? == some 'L' then .ok (some lastMark, body)
  else if cs.contains '#' then
    let n ← byte .nthInvalid (cs.drop (body.length + 1))
    if 1 ≤ n && n ≤ 5 then .ok (some (1 <<< n), body) else .error .nthOutOfBounds
  else .ok (none, cs)

/-- Put a mark on a value of the field. -/
def Field.setMark (f : Field) : Option Nat → Except FieldFault Unit
  | none => .ok ()
  | some mark => if f.supports mark then .ok () else .error (.markUnsupported mark f.marks)

/-- The two ends of the range that is stepped through. -/
def Field.stepRange (f : Field) (cs : List Char) : Except FieldFault (Nat × Nat) :=
  if cs = ['*'] then .ok (f.low, f.high)
  else if cs.contains '-' then
    match splitAt '-' cs with
    | [a, b] => do
      let start ← byte .stepRangeStart a
      let stop ← byte .stepRangeEnd b
      .ok (start, stop)
    | _ => .error .stepRangeSplit
  else do
    let start ← byte .stepStart cs
    .ok (start, f.high)

/-- A part with a step: `*/5`, `3/2`, `1-10/3`. -/
def Field.checkStep (f : Field) (cs : List Char) : Except FieldFault Unit := do
  let (mark, body) ← nth cs
  match splitAt '/' body with
  | [range, step] =>
    let n ← byte .stepInvalid step
    if n = 0 then .error .stepZero
    else do
      let (start, stop) ← f.stepRange range
      if start < f.low || f.high < stop || stop < start then .error .stepOutOfBounds
      else do
        f.setMark mark
        if 255 < start + (stop - start) / n * n + n then .error .stepOverflow else .ok ()
  | _ => .error .stepSplit

/-- A part that is a range: `1-5`. -/
def Field.checkRange (f : Field) (cs : List Char) : Except FieldFault Unit := do
  let (mark, body) ← nth cs
  match splitAt '-' body with
  | [a, b] =>
    let start ← byte .rangeStart a
    let stop ← byte .rangeEnd b
    if stop < start || start < f.low || f.high < stop then .error .rangeOutOfBounds
    else f.setMark mark
  | _ => .error .rangeSplit

/-- A part that asks for the closest working day: `15w`. -/
def Field.checkWorkday (f : Field) (cs : List Char) : Except FieldFault Unit := do
  let n ← byte .workdayInvalid (cs.takeWhile (· != 'w'))
  if n < f.low || f.high < n then .error .workdayOutOfBounds
  else f.setMark (some workdayMark)

/-- A part that is a single value: `7`, `5#2`, `5l`. -/
def Field.checkNumber (f : Field) (cs : List Char) : Except FieldFault Unit := do
  let cs := cs.map fun c => if c = 'l' then 'L' else c
  let cs :=
    if cs.getLast? == some 'L' && !cs.contains '#' then replaceAll ['L'] ['#', 'L'] cs else cs
  if cs.contains '#' && !f.weekday then .error .nthNotAllowed
  else if cs.contains 'L' && !f.weekday then .error .lastNotAllowed
  else do
    let (mark, body) ← nth cs
    let n ← byte .numberInvalid body
    if n < f.low || f.high < n then .error .numberOutOfBounds else f.setMark mark

/-- One part of a field. -/
def Field.checkPart (f : Field) (cs : List Char) : Except FieldFault Unit :=
  if cs.contains '/' then f.checkStep cs
  else if cs.contains '-' then f.checkRange cs
  else if cs.contains 'w' then f.checkWorkday cs
  else if cs = ['l'] then .ok ()
  else f.checkNumber cs

/-- A field: a star, or parts separated by commas; empty parts are skipped. -/
def Field.check (f : Field) (cs : List Char) : Except FieldFault Unit :=
  if cs = ['*'] then .ok ()
  else ((splitAt ',' cs).filter fun part => !part.isEmpty).forM f.checkPart

/-! ## A schedule -/

/-- Schedules with a name. -/
def nicknames : List (String × String) := [
  ("@yearly", "0 0 1 1 *"), ("@annually", "0 0 1 1 *"), ("@monthly", "0 0 1 * *"),
  ("@weekly", "0 0 * * 0"), ("@daily", "0 0 * * *"), ("@hourly", "0 * * * *")]

/-- Names of weekdays and months and the numbers they stand for, in the order in which they are
replaced. A range that ends on Sunday ends on day seven. -/
def dayAndMonthNames : List (String × String) := [
  ("-sun", "-7"), ("sun", "0"), ("mon", "1"), ("tue", "2"), ("wed", "3"), ("thu", "4"),
  ("fri", "5"), ("sat", "6"), ("jan", "1"), ("feb", "2"), ("mar", "3"), ("apr", "4"),
  ("may", "5"), ("jun", "6"), ("jul", "7"), ("aug", "8"), ("sep", "9"), ("oct", "10"),
  ("nov", "11"), ("dec", "12")]

/-- Lower case as far as a schedule can tell: besides the ASCII letters, the two letters beyond
ASCII whose lower case is in ASCII, the dotted capital `I` and the Kelvin sign. -/
def lower (cs : List Char) : List Char :=
  cs.flatMap fun c =>
    if c = '\u0130' then ['i', '\u0307'] else if c = '\u212a' then ['k'] else [c.toLower]

/-- Replace a nickname by the schedule it stands for. -/
def expandNickname (cs : List Char) : List Char :=
  if cs.contains '@' then
    let cs := trimChars cs
    match nicknames.find? fun p => p.1.toList == lowerAscii cs with
    | some p => p.2.toList
    | none => cs
  else cs

/-- The fields of a schedule, with nicknames and names replaced. -/
def fieldsOf (schedule : String) : List (List Char) :=
  let cs := expandNickname (replaceAll ['?'] ['*'] schedule.toList)
  fields (replaceEach dayAndMonthNames (lower (trimChars cs)))

/-- Judge a schedule. -/
def check (schedule : String) : Except Fault Unit :=
  if isAllBlank schedule then .error .blank
  else
    let fs := fieldsOf schedule
    if fs.length = 5 then
      match (Field.all.zip fs).forM fun p => p.1.check p.2 with
      | .ok () => .ok ()
      | .error f => .error (.field f)
    else if fs.length = 6 then .error .seconds
    else .error .fieldCount

end FleetControl.Cron
