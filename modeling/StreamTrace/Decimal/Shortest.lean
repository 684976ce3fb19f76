import StreamTrace.Ieee

/-!
# Shortest decimals

The decimal text of a floating-point number: as few digits as read back to the same pattern, and
of those the nearest, written positionally. The search tries one digit, two digits and so on; on
each grid only the two neighbours of the number can lie among the decimals that read back.
-/

namespace StreamTrace

namespace Decimal

/-- A number `v` with the ends of the interval of decimals that read back as `v`, over one
denominator. -/
structure Interval where
  low : Nat
  value : Nat
  high : Nat
  den : Nat
  closed : Bool

/-- The decimals that round to the finite, non-zero pattern `bits`. -/
def interval (f : FloatFormat) (bits : Nat) : Interval :=
  let (m, e) := f.parts bits
  let gapBelow := if m = Nat.pow 2 f.fractionBits ∧ f.minExponent < e then 1 else 2
  let up := Nat.pow 2 (e - 2).toNat
  { low := (4 * m - gapBelow) * up, value := 4 * m * up, high := (4 * m + 2) * up,
    den := Nat.pow 2 (2 - e).toNat, closed := m % 2 = 0 }

/-- Whether `d * 10 ^ k` reads back as the number. -/
def Interval.holds (i : Interval) (d : Nat) (k : Int) : Bool :=
  let x := d * Nat.pow 10 k.toNat * i.den
  let g := Nat.pow 10 (-k).toNat
  if i.closed then i.low * g ≤ x && x ≤ i.high * g else i.low * g < x && x < i.high * g

/-- The multiple of `10 ^ k` nearest to the number among those that read back as it, where a tie
goes up. -/
def Interval.onGrid (i : Interval) (k : Int) : Option Nat :=
  let num := i.value * Nat.pow 10 (-k).toNat
  let den := i.den * Nat.pow 10 k.toNat
  let d := num / den
  match i.holds d k, i.holds (d + 1) k with
  | true, true => if 2 * (num % den) < den then some d else some (d + 1)
  | true, false => some d
  | false, true => some (d + 1)
  | false, false => none

/-- The number of digits before the point, or for numbers below 1 the negated number of zeroes
that follow it. -/
def Interval.magnitude (i : Interval) : Int :=
  if i.den ≤ i.value then (Nat.toDigits 10 (i.value / i.den)).length
  else
    Int.neg ((List.range 400).takeWhile fun j => i.value * Nat.pow 10 (j + 1) < i.den).length

/-- Digits and exponent of the shortest decimal that reads back as the non-zero pattern `bits`. One
digit that was rounded up to ten is a single digit again. -/
def shortest (f : FloatFormat) (bits : Nat) : Nat × Int :=
  let i := interval f bits
  let top := i.magnitude
  let grids := (List.range 17).map fun n => top - (n + 1 : Nat)
  match grids.findSome? fun k => (i.onGrid k).map (·, k) with
  | some (d, k) => if d % 10 = 0 then (d / 10, k + 1) else (d, k)
  | none => (0, 0)

/-- The number `d * 10 ^ k` without an exponent, with a point only where it is needed. -/
def positional (d : Nat) (k : Int) : String :=
  let digits := Nat.toDigits 10 d
  if 0 ≤ k then String.ofList (digits ++ List.replicate k.toNat '0')
  else
    let places := (-k).toNat
    let padded := List.replicate (places + 1 - digits.length) '0' ++ digits
    let whole := padded.take (padded.length - places)
    let fraction := padded.drop (padded.length - places)
    String.ofList (whole ++ '.' :: fraction)

/-- A floating-point number with a point only where it is needed. -/
def plain (f : FloatFormat) (bits : Nat) : String :=
  if f.isNaN bits then "NaN"
  else
    let sign := if f.negative bits then "-" else ""
    if !f.isFinite bits then sign ++ "inf"
    else if f.magnitude bits = 0 then sign ++ "0"
    else
      let (d, k) := shortest f bits
      sign ++ positional d k

/-- A floating-point number with at least one digit after the point. -/
def pointed (f : FloatFormat) (bits : Nat) : String :=
  let text := plain f bits
  if !f.isFinite bits || text.toList.contains '.' then text else text ++ ".0"

end Decimal

end StreamTrace
