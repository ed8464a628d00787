import FleetControl.Json.Basic
import FleetControl.Text.Digits

/-!
# Numbers in JSON

Reading and writing the numbers of a document.

* `JsonNumber.ofDecimal` — integers that fit 64 bits stay integers. Any other number becomes a
  float: its leading digits that fit 64 bits are scaled by a power of ten, one rounding for each
  step, and a number beyond the largest float has no value.
* `JsonNumber.chars` — a float has the fewest digits that read back, positional between `10^-5` and
  `10^16` and with a signed exponent beyond.
-/

namespace FleetControl.JsonNumber

open FleetControl.Text

/-- The largest integer of 64 bits. -/
def maxNatural : Nat := Word.max64

/-! ## From decimal text to a value -/

/-- The digits gathered so far: their value, and how many more there were than fit 64 bits. -/
structure Significand where
  value : Nat
  dropped : Nat

/-- Gather the digits before the point. Once a digit does not fit, no later one is looked at. -/
def wholeDigits (acc : Nat) : List Char → Significand
  | [] => ⟨acc, 0⟩
  | c :: rest =>
    let next := 10 * acc + (c.toNat - '0'.toNat)
    if next ≤ maxNatural then wholeDigits next rest else ⟨acc, (c :: rest).length⟩

/-- Gather the digits after the point, counting those that fit. -/
def fractionDigits (acc used : Nat) : List Char → Nat × Nat
  | [] => (acc, used)
  | c :: rest =>
    let next := 10 * acc + (c.toNat - '0'.toNat)
    if next ≤ maxNatural then fractionDigits next (used + 1) rest else (acc, used)

/-- A power of ten as a float, for exponents up to 308. -/
def powerOfTen (e : Nat) : Float := Float.ofScientific 1 false e

/-- Multiply a float by a power of ten. Steps down go by 308 digits at a time, at most `fuel` of
them; a product beyond the largest float has no value. -/
def scale (f : Float) (e : Int) : Nat → Option Float
  | 0 => some f
  | fuel + 1 =>
    if 0 ≤ e then
      if e ≤ 308 then
        let g := f * powerOfTen e.toNat
        if g.isInf then none else some g
      else if f == 0 then some f else none
    else if -308 ≤ e then some (f / powerOfTen e.natAbs)
    else if f == 0 then some f
    else scale (f / powerOfTen 308) (e + 308) fuel

/-- A float with a sign. -/
def signed (minus : Bool) (f : Float) : JsonNumber :=
  .float (if minus then -f else f).toBits

/-- The value of a decimal number: a sign, the digits before and after the point (`none` without a
point), and the exponent (`none` without one). -/
def ofDecimal (minus : Bool) (whole : List Char) (fraction : Option (List Char))
    (exponent : Option Int) : Option JsonNumber :=
  let w := wholeDigits 0 whole
  if fraction.isNone && exponent.isNone && w.dropped == 0 then
    if !minus then some (.natural w.value)
    else if w.value == 0 || Word.count63 < w.value then
      some (signed true (Float.ofNat w.value))
    else some (.negative w.value)
  else
    let (value, used) := fractionDigits w.value 0 (fraction.getD [])
    let e : Int := (w.dropped : Int) - used + exponent.getD 0
    (scale (Float.ofNat value) e (e.natAbs + 1)).map (signed minus)

/-! ## The shortest digits of a float -/

/-- A positive rational number. -/
structure Ratio where
  num : Nat
  den : Nat

/-- Whether the first number is smaller. -/
def Ratio.lt (a b : Ratio) : Bool := a.num * b.den < b.num * a.den

/-- Digits and the power of ten that scales them. -/
structure Scientific where
  digits : Nat
  exponent : Int

/-- The number that digits and a power of ten stand for. -/
def Scientific.ratio (s : Scientific) : Ratio :=
  if 0 ≤ s.exponent then ⟨s.digits * Nat.pow 10 s.exponent.toNat, 1⟩
  else ⟨s.digits, Nat.pow 10 s.exponent.natAbs⟩

/-- How many fractions a float can have: it keeps 52 bits of them. -/
def fractionCount : Nat := 4503599627370496

/-- How many exponents a float can have: it keeps 11 bits of them. -/
def exponentCount : Nat := 2048

/-- A finite positive float and the interval of numbers that round to it. -/
structure Rounding where
  value : Ratio
  low : Ratio
  high : Ratio
  /-- Whether the ends belong to the interval. -/
  closed : Bool

/-- The interval of numbers that round to the float with the given fraction and exponent bits. -/
def rounding (fraction exponent : Nat) : Rounding :=
  let m := if exponent == 0 then fraction else fraction + fractionCount
  let e : Int := (if exponent == 0 then 1 else (exponent : Int)) - 1075 - 2
  let at' (n : Nat) : Ratio := if 0 ≤ e then ⟨n * Nat.pow 2 e.toNat, 1⟩ else ⟨n, Nat.pow 2 e.natAbs⟩
  let below := if fraction == 0 && 1 < exponent then 4 * m - 1 else 4 * m - 2
  ⟨at' (4 * m), at' below, at' (4 * m + 2), m % 2 == 0⟩

/-- Whether a number rounds to the float. -/
def Rounding.holds (r : Rounding) (x : Ratio) : Bool :=
  (r.low.lt x || (r.closed && !x.lt r.low)) && (x.lt r.high || (r.closed && !r.high.lt x))

/-- The number of digits before the point, or minus the number of zeros after it: the `k` with
`10^(k-1) ≤ r < 10^k`, searched downwards from a bound. -/
def Ratio.magnitude (r : Ratio) : Int :=
  if r.den ≤ r.num then ((digits (r.num / r.den)).length : Int)
  else
    let rec go (j : Nat) : Nat → Int
      | 0 => -(j : Int)
      | fuel + 1 => if r.den ≤ r.num * Nat.pow 10 (j + 1) then -(j : Int) else go (j + 1) fuel
    go 0 400

/-- The neighbours of a number on the grid of multiples of a power of ten that round to the float,
the nearer one if both do; of two equally near the even one. -/
def Rounding.onGrid (r : Rounding) (k : Int) : Option Scientific :=
  let scaled : Ratio :=
    if 0 ≤ k then ⟨r.value.num, r.value.den * Nat.pow 10 k.toNat⟩
    else ⟨r.value.num * Nat.pow 10 k.natAbs, r.value.den⟩
  let d := scaled.num / scaled.den
  let twice := 2 * (scaled.num % scaled.den)
  let down : Scientific := ⟨d, k⟩
  let up : Scientific := ⟨d + 1, k⟩
  let downHolds := 0 < d && r.holds down.ratio
  let upHolds := r.holds up.ratio
  if downHolds && upHolds then
    if twice < scaled.den || (twice == scaled.den && d % 2 == 0) then some down else some up
  else if downHolds then some down
  else if upHolds then some up
  else none

/-- The fewest digits that read back, tried from `count` digits upwards. -/
def Rounding.shortestFrom (r : Rounding) (count : Nat) : Nat → Scientific
  | 0 => ⟨0, 0⟩
  | fuel + 1 =>
    match r.onGrid (r.value.magnitude - count) with
    | some s => s
    | none => r.shortestFrom (count + 1) fuel

/-- Drop the zeros at the end of the digits. -/
def Scientific.trim (s : Scientific) : Nat → Scientific
  | 0 => s
  | fuel + 1 =>
    if 0 < s.digits && s.digits % 10 == 0 then
      Scientific.trim ⟨s.digits / 10, s.exponent + 1⟩ fuel
    else s

/-- How a float is laid out: positional while the point falls among the digits or near them. -/
def Scientific.chars (s : Scientific) : List Char :=
  let ds := Text.digits s.digits
  let point : Int := ds.length + s.exponent
  if 0 ≤ s.exponent ∧ point ≤ 16 then
    ds ++ List.replicate s.exponent.toNat '0' ++ ['.', '0']
  else if 0 < point ∧ point ≤ 16 then
    ds.take point.toNat ++ '.' :: ds.drop point.toNat
  else if -5 < point ∧ point ≤ 0 then
    '0' :: '.' :: List.replicate point.natAbs '0' ++ ds
  else
    let e := point - 1
    let exponent := (if e < 0 then '-' else '+') :: Text.digits e.natAbs
    match ds with
    | [d] => d :: 'e' :: exponent
    | d :: rest => d :: '.' :: rest ++ 'e' :: exponent
    | [] => []

/-- A finite float, given by its bits. -/
def floatChars (bits : UInt64) : List Char :=
  let n := bits.toNat
  let minus := if Word.count63 ≤ n then ['-'] else []
  let fraction := n % fractionCount
  let exponent := n / fractionCount % exponentCount
  if fraction == 0 && exponent == 0 then minus ++ ['0', '.', '0']
  else minus ++ (((rounding fraction exponent).shortestFrom 1 17).trim 17).chars

/-- A number as text. -/
def chars : JsonNumber → List Char
  | .natural n => digits n
  | .negative n => '-' :: digits n
  | .float bits => floatChars bits

end FleetControl.JsonNumber
