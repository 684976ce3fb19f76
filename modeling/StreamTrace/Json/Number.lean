import StreamTrace.Json
import StreamTrace.Ieee

/-!
# JSON numbers

What the digits of a number stand for. An integer that fits 64 bits is exact. Every other number is
the significand of its digits, as many of them as fit 64 bits, rounded to a floating-point number
and then scaled by a power of ten, which rounds once more.
-/

namespace StreamTrace

namespace Json

/-- Digits read so far: the number that they spell, and how many more were left out because they
did not fit. -/
structure Significand where
  value : Nat := 0
  omitted : Nat := 0

namespace Significand

/-- Adds the digits before the point. Behind the first one that does not fit all are left out. -/
def addWhole (s : Significand) : List Char → Significand
  | [] => s
  | c :: rest =>
    let value := s.value * 10 + (c.toNat - '0'.toNat)
    if value < UInt64.size then addWhole { s with value } rest
    else { s with omitted := s.omitted + rest.length + 1 }

/-- Adds the digits behind the point, and counts those that fit. -/
def addFraction (s : Significand) (count : Nat) : List Char → Significand × Nat
  | [] => (s, count)
  | c :: rest =>
    let value := s.value * 10 + (c.toNat - '0'.toNat)
    if value < UInt64.size then addFraction { s with value } (count + 1) rest else (s, count)

end Significand

/-- The largest power of ten that is a floating-point number. -/
def largestPower : Nat := 308

/-- The pattern of a power of ten up to the largest. -/
def powerOfTen (k : Nat) : Nat := FloatFormat.double.ofDecimal false 1 k

/-- The number `bits` divided by a power of ten. Beyond the largest power it is divided in steps,
until nothing is left of it. -/
def divideByPower : (fuel : Nat) → (bits k : Nat) → Nat
  | 0, bits, _ => bits
  | fuel + 1, bits, k =>
    if k ≤ largestPower then FloatFormat.double.quotient bits (powerOfTen k)
    else divideByPower fuel (FloatFormat.double.quotient bits (powerOfTen largestPower))
      (k - largestPower)

/-- The number `significand * 10 ^ exponent`, unless it is too large. -/
def scaled? (significand : Nat) (exponent : Int) : Option Nat :=
  let bits := FloatFormat.double.ofInt significand
  if significand = 0 then some bits
  else if exponent < 0 then some (divideByPower 4 bits (-exponent).toNat)
  else if largestPower < exponent then none
  else
    let product := FloatFormat.double.product bits (powerOfTen exponent.toNat)
    if FloatFormat.double.isFinite product then some product else none

/-- A floating-point number from its digits on both sides of the point and its exponent. -/
def float? (negative : Bool) (whole fraction : List Char) (exponent : Int) : Option Json := do
  let s := ({} : Significand).addWhole whole
  let (s, count) := s.addFraction 0 fraction
  let bits ← scaled? s.value (s.omitted - count + exponent)
  return .float (UInt64.ofNat (bits + if negative then FloatFormat.double.signBit else 0))

/-- A number without point and exponent. A negative zero is no integer. -/
def integer? (negative : Bool) (whole : List Char) : Option Json :=
  let n : Int := (whole.foldl (fun n c => n * 10 + (c.toNat - '0'.toNat)) 0 : Nat)
  if negative then
    if 0 < n ∧ Int64.minValue.toInt ≤ -n then some (.int (-n)) else float? true whole [] 0
  else if n < UInt64.size then some (.int n)
  else float? false whole [] 0

end Json

end StreamTrace
