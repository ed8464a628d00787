import FleetControl.Text.Digits

/-!
# Spans of time

A span is a whole number of nanoseconds. The longest one has `2^64 - 1` seconds and
`999_999_999` nanoseconds; arithmetic that would pass it stops there.

* `text` — the span in its largest unit with a non-zero whole part, without trailing zeros:
  `1.5s`, `200ms`, `1.5µs`, `0ns`.
-/

namespace FleetControl

/-- A span of time in nanoseconds. -/
structure Span where
  nanos : Nat
  deriving DecidableEq, Repr, Inhabited

namespace Span

/-- Nanoseconds in a second. -/
def perSecond : Nat := 1000000000

/-- Nanoseconds in a millisecond. -/
def perMilli : Nat := 1000000

/-- The longest span. -/
def longest : Span := ⟨Word.max64 * perSecond + (perSecond - 1)⟩

/-- The empty span. -/
def zero : Span := ⟨0⟩

/-- A whole number of seconds. -/
def ofSeconds (n : Nat) : Span := ⟨n * perSecond⟩

/-- A whole number of milliseconds. -/
def ofMillis (n : Nat) : Span := ⟨n * perMilli⟩

/-- The whole seconds of a span. -/
def seconds (s : Span) : Nat := s.nanos / perSecond

/-- The nanoseconds beyond the whole seconds of a span. -/
def subsecond (s : Span) : Nat := s.nanos % perSecond

/-- The number of milliseconds that a clock of millisecond ticks waits for a span: a started
millisecond counts. -/
def millis (s : Span) : Nat := (s.nanos + (perMilli - 1)) / perMilli

/-- Whether the span is empty. -/
def isZero (s : Span) : Bool := s.nanos == 0

/-- A multiple of a span, at most the longest one. -/
def timesUpTo (s : Span) (n : Nat) : Span := ⟨min (n * s.nanos) longest.nanos⟩

/-- A number with a decimal fraction of `width` digits, trailing zeros dropped. -/
def decimal (whole fraction width : Nat) : List Char :=
  let ds := ((Text.padded width fraction).reverse.dropWhile (· == '0')).reverse
  if ds.isEmpty then Text.digits whole else Text.digits whole ++ '.' :: ds

/-- The span in its largest unit with a non-zero whole part. -/
def text (s : Span) : String :=
  String.ofList <|
    if perSecond ≤ s.nanos then decimal s.seconds s.subsecond 9 ++ ['s']
    else if 1000000 ≤ s.nanos then decimal (s.nanos / 1000000) (s.nanos % 1000000) 6 ++ ['m', 's']
    else if 1000 ≤ s.nanos then decimal (s.nanos / 1000) (s.nanos % 1000) 3 ++ ['µ', 's']
    else Text.digits s.nanos ++ ['n', 's']

end Span

end FleetControl
