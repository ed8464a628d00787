import FleetControl.Word

/-!
# Decimal digits

Writing natural numbers in base ten, with or without a fixed width, and reading them back.

* `readUnsigned` — the number of a setting or a schedule field: an optional plus sign and at least
  one digit, at most `limit`. It tells the three ways to fail apart.
-/

namespace FleetControl.Text

/-- A natural number in base ten. -/
def digits (n : Nat) : List Char := Nat.toDigits 10 n

/-- A natural number in base ten, with zeros in front up to `width` digits. -/
def padded (width n : Nat) : List Char :=
  let ds := digits n
  List.replicate (width - ds.length) '0' ++ ds

/-- The value of a decimal digit. -/
def digitValue? (c : Char) : Option Nat :=
  if c.isDigit then some (c.toNat - '0'.toNat) else none

/-- Append the digits of a list to a number; `none` if some character is no digit. -/
def appendDigits (acc : Nat) : List Char → Option Nat
  | [] => some acc
  | c :: rest => (digitValue? c).bind fun d => appendDigits (10 * acc + d) rest

/-- Append the digits at the front of a list to a number. -/
def appendLeadingDigits (acc : Nat) : List Char → Nat
  | [] => acc
  | c :: rest =>
    match digitValue? c with
    | some d => appendLeadingDigits (10 * acc + d) rest
    | none => acc

/-- Why a text is no unsigned number. -/
inductive NumberFault where
  | empty
  | invalidDigit
  | tooLarge
  deriving DecidableEq, Repr

/-- The fault in words. -/
def NumberFault.message : NumberFault → String
  | .empty => "cannot parse integer from empty string"
  | .invalidDigit => "invalid digit found in string"
  | .tooLarge => "number too large to fit in target type"

/-- Append the digits of a list to a number that stays at most `limit`. Characters are judged from
left to right, so the first one that is no digit or that leads past the limit decides. -/
def appendDigitsUpTo (limit acc : Nat) : List Char → Except NumberFault Nat
  | [] => .ok acc
  | c :: rest =>
    match digitValue? c with
    | none => .error .invalidDigit
    | some d =>
      if 10 * acc + d ≤ limit then appendDigitsUpTo limit (10 * acc + d) rest
      else .error .tooLarge

/-- Read a number of at most `limit`: an optional plus sign, then one digit or more. -/
def readUnsigned (limit : Nat) (cs : List Char) : Except NumberFault Nat :=
  match cs with
  | [] => .error .empty
  | ['+'] => .error .invalidDigit
  | '+' :: rest => appendDigitsUpTo limit 0 rest
  | cs => appendDigitsUpTo limit 0 cs

end FleetControl.Text
