/-!
# Binary floating point

Floating-point numbers as their bit patterns. A finite pattern stands for a number `m * 2 ^ e`;
`Format.round` is the pattern nearest to a quotient of two naturals, with ties to the even pattern,
and all conversions between the formats, from integers and from decimals go through it.
-/

namespace StreamTrace

/-- A binary interchange format: a sign bit, `exponentBits` and `fractionBits`. -/
structure FloatFormat where
  fractionBits : Nat
  exponentBits : Nat
  deriving Repr, DecidableEq

namespace FloatFormat

def single : FloatFormat := ⟨23, 8⟩

def double : FloatFormat := ⟨52, 11⟩

variable (f : FloatFormat)

def signBit : Nat := Nat.pow 2 (f.fractionBits + f.exponentBits)

/-- The magnitude bits of infinity; larger magnitudes are not numbers. -/
def infinity : Nat := (Nat.pow 2 f.exponentBits - 1) * Nat.pow 2 f.fractionBits

/-- The exponent of the last bit of the smallest numbers. -/
def minExponent : Int := 2 - Nat.pow 2 (f.exponentBits - 1) - f.fractionBits

/-- The magnitude bits of the NaN that operations give. -/
def quietNaN : Nat := f.infinity + Nat.pow 2 (f.fractionBits - 1)

def negative (bits : Nat) : Bool := f.signBit ≤ bits

def magnitude (bits : Nat) : Nat := bits % f.signBit

def isNaN (bits : Nat) : Bool := f.infinity < f.magnitude bits

def isFinite (bits : Nat) : Bool := f.magnitude bits < f.infinity

/-- The mantissa `m` and the exponent `e` of a finite pattern, which stands for `m * 2 ^ e`. -/
def parts (bits : Nat) : Nat × Int :=
  let field := f.magnitude bits / Nat.pow 2 f.fractionBits
  let fraction := f.magnitude bits % Nat.pow 2 f.fractionBits
  if field = 0 then (fraction, f.minExponent)
  else (fraction + Nat.pow 2 f.fractionBits, f.minExponent + (field - 1 : Nat))

/-- Comparison of the numbers: nothing equals a NaN, and both zeroes are equal. -/
def same (a b : Nat) : Bool :=
  !f.isNaN a && !f.isNaN b && (a == b || (f.magnitude a == 0 && f.magnitude b == 0))

/-- The quotient `num / den` rounded to the nearest natural, a half to the even neighbour. -/
def roundQuotient (num den : Nat) : Nat :=
  let q := num / den
  let r := num % den
  if 2 * r < den then q else if den < 2 * r then q + 1 else q + q % 2

/-- The quotient `num / den` in units of `2 ^ e`, rounded. -/
def roundScaled (num den : Nat) (e : Int) : Nat :=
  if 0 ≤ e then roundQuotient num (den * Nat.pow 2 e.toNat)
  else roundQuotient (num * Nat.pow 2 (-e).toNat) den

/-- The exponent of the last bit of the pattern nearest to `num / den`, rounding up aside. -/
def scaleOf (num den : Nat) : Int :=
  let guess : Int := (Nat.log2 num : Int) - Nat.log2 den - f.fractionBits
  let below : Bool :=
    if 0 ≤ guess then num < den * Nat.pow 2 (guess.toNat + f.fractionBits)
    else num * Nat.pow 2 (-guess).toNat < den * Nat.pow 2 f.fractionBits
  max f.minExponent (if below then guess - 1 else guess)

/-- The pattern nearest to `num / den`; ties go to the even one, and what is too large becomes
infinity. -/
def round (neg : Bool) (num den : Nat) : Nat :=
  let sign := if neg then f.signBit else 0
  if num = 0 ∨ den = 0 then sign
  else
    let e := f.scaleOf num den
    let q := roundScaled num den e
    sign + min f.infinity ((e - f.minExponent).toNat * Nat.pow 2 f.fractionBits + q)

def ofInt (n : Int) : Nat := f.round (n < 0) n.natAbs 1

/-- The numerator and the denominator of a finite number without its sign. -/
def fraction (bits : Nat) : Nat × Nat :=
  let (m, e) := f.parts bits
  (m * Nat.pow 2 e.toNat, Nat.pow 2 (-e).toNat)

/-- The product of two finite numbers that are not negative. -/
def product (a b : Nat) : Nat :=
  let (p, q) := f.fraction a
  let (r, s) := f.fraction b
  f.round false (p * r) (q * s)

/-- The quotient of two finite numbers that are not negative; the second is not zero. -/
def quotient (a b : Nat) : Nat :=
  let (p, q) := f.fraction a
  let (r, s) := f.fraction b
  f.round false (p * s) (q * r)

/-- Decimal exponents beyond which every number is too large, and below which it rounds to zero,
for any format of up to 64 bits. -/
def decimalBound : Nat := 400

/-- The pattern nearest to `± digits * 10 ^ exponent`. The size of the number decides first, since
the power of ten may be too large to compute. -/
def ofDecimal (neg : Bool) (digits : Nat) (exponent : Int) : Nat :=
  let sign := if neg then f.signBit else 0
  let magnitude := (Nat.toDigits 10 digits).length + exponent
  if digits = 0 ∨ magnitude < -(decimalBound : Int) then sign
  else if (decimalBound : Int) < magnitude then sign + f.infinity
  else if 0 ≤ exponent then f.round neg (digits * Nat.pow 10 exponent.toNat) 1
  else f.round neg digits (Nat.pow 10 (-exponent).toNat)

/-- The same number in format `g`, rounded when it has no pattern there. -/
def convert (g : FloatFormat) (bits : Nat) : Nat :=
  let sign := if f.negative bits then g.signBit else 0
  if f.isFinite bits then
    let (m, e) := f.parts bits
    if 0 ≤ e then g.round (f.negative bits) (m * Nat.pow 2 e.toNat) 1
    else g.round (f.negative bits) m (Nat.pow 2 (-e).toNat)
  else if f.isNaN bits then
    sign + g.quietNaN
  else sign + g.infinity

end FloatFormat

end StreamTrace
