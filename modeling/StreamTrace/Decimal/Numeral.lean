import StreamTrace.Ieee

/-!
# Numerals

Numbers as they are written in a log filter: naturals and integers of 64 bits, with a sign and
leading zeros, and floating-point numbers with digits on at least one side of the point.
-/

namespace StreamTrace

namespace Decimal

/-- The number that decimal digits spell. -/
def ofDigits (ds : List Char) : Nat := ds.foldl (fun n c => n * 10 + (c.toNat - '0'.toNat)) 0

/-- The number of one digit or more, and nothing else. -/
def natural? (cs : List Char) : Option Nat :=
  if cs.isEmpty ∨ ¬cs.all Char.isDigit then none else some (ofDigits cs)

/-- A natural number below `2 ^ 64`, where a plus may stand in front. -/
def unsigned64? (cs : List Char) : Option Nat := do
  let n ← natural? (match cs with
    | '+' :: rest => rest
    | cs => cs)
  if n < UInt64.size then some n else none

/-- Whether a minus stands in front, and the text behind the sign. -/
def splitSign : List Char → Bool × List Char
  | '-' :: rest => (true, rest)
  | '+' :: rest => (false, rest)
  | cs => (false, cs)

/-- An integer of 64 bits. -/
def signed64? (cs : List Char) : Option Int := do
  let (negative, digits) := splitSign cs
  let n ← natural? digits
  let n : Int := if negative then Int.neg n else n
  if Int64.minValue.toInt ≤ n ∧ n ≤ Int64.maxValue.toInt then some n else none

/-- The exponent behind the digits, up to the end of the text; none is zero. -/
def exponent? (cs : List Char) : Option Int :=
  match cs with
  | [] => some 0
  | c :: rest =>
    if c = 'e' ∨ c = 'E' then
      let (negative, digits) := splitSign rest
      (natural? digits).map fun n => if negative then Int.neg n else n
    else none

/-- The pattern of the double-precision number nearest to a numeral without its sign. -/
def magnitude? (negative : Bool) (cs : List Char) : Option Nat := do
  let whole := cs.takeWhile Char.isDigit
  let behind := cs.drop whole.length
  let fraction := match behind with
    | '.' :: rest => rest.takeWhile Char.isDigit
    | _ => []
  let behind := match behind with
    | '.' :: rest => rest.drop fraction.length
    | behind => behind
  let exponent ← exponent? behind
  if whole.isEmpty ∧ fraction.isEmpty then none
  else
    some (FloatFormat.double.ofDecimal negative (ofDigits (whole ++ fraction))
      (exponent - fraction.length))

/-- The pattern of a double-precision number: a numeral, `inf`, `infinity` or `nan`, the words in
letters of either case, and perhaps a sign. -/
def double? (cs : List Char) : Option Nat :=
  let (negative, cs) := splitSign cs
  let word := String.ofList (cs.map Char.toLower)
  let sign := if negative then FloatFormat.double.signBit else 0
  if word = "inf" ∨ word = "infinity" then some (sign + FloatFormat.double.infinity)
  else if word = "nan" then some (sign + FloatFormat.double.quietNaN)
  else magnitude? negative cs

end Decimal

end StreamTrace
