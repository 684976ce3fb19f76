import StreamTrace.Decimal.Numeral
import StreamTrace.Decimal.Shortest
import StreamTrace.Pattern.Support

/-!
# Field matches

What a log filter may ask of the fields of an event: that there is one of a certain name, and that
its value is a certain one or is written as a pattern says. `FieldValue.compare` and
`FieldMatch.compare` order them.
-/

namespace StreamTrace

/-- The value that a field must have. A `float` holds the pattern of a number that is not NaN. -/
inductive FieldValue where
  | boolean (b : Bool)
  | float (bits : Nat)
  | notANumber
  | unsigned (n : Nat)
  | signed (n : Int)
  | pattern (text : String)
  deriving Repr, DecidableEq

namespace FieldValue

def boolean? (s : String) : Option FieldValue :=
  if s = "true" then some (.boolean true)
  else if s = "false" then some (.boolean false)
  else none

def float? (s : String) : Option FieldValue :=
  (Decimal.double? s.toList).map fun bits =>
    if FloatFormat.double.isNaN bits then .notANumber else .float bits

def pattern? (s : String) : Option FieldValue :=
  if Pattern.isMatchable s then some (.pattern s) else none

/-- A value of the first kind that has this written form; what is neither a truth value nor a number
must be a pattern. -/
def ofText? (s : String) : Option FieldValue :=
  (boolean? s).or <| ((Decimal.unsigned64? s.toList).map .unsigned).or <|
    ((Decimal.signed64? s.toList).map .signed).or <| (float? s).or (pattern? s)

def text : FieldValue → String
  | .boolean b => if b then "true" else "false"
  | .float bits => Decimal.plain FloatFormat.double bits
  | .notANumber => "NaN"
  | .unsigned n => s!"{n}"
  | .signed n => s!"{n}"
  | .pattern s => s

/-- The kinds of values in ascending order. -/
def kind : FieldValue → Nat
  | .boolean _ => 0
  | .float _ => 1
  | .notANumber => 2
  | .unsigned _ => 3
  | .signed _ => 4
  | .pattern _ => 5

/-- An integer by which the patterns of numbers are ordered as the numbers are. -/
def floatKey (bits : Nat) : Int :=
  let magnitude : Int := FloatFormat.double.magnitude bits
  if FloatFormat.double.negative bits then Int.neg magnitude else magnitude

/-- Orders values by kind and those of one kind by size or text; both zeroes are one number. -/
def compare : FieldValue → FieldValue → Ordering
  | .boolean a, .boolean b => Ord.compare a b
  | .float a, .float b => Ord.compare (floatKey a) (floatKey b)
  | .unsigned a, .unsigned b => Ord.compare a b
  | .signed a, .signed b => Ord.compare a b
  | .pattern a, .pattern b => Ord.compare a b
  | a, b => Ord.compare a.kind b.kind

end FieldValue

/-- A field that an event must have, perhaps with a value. -/
structure FieldMatch where
  name : String
  value : Option FieldValue
  deriving Repr, DecidableEq

namespace FieldMatch

/-- A name, and behind an equals sign the value, up to the next such sign. -/
def ofText? (s : String) : Option FieldMatch :=
  match s.splitOn "=" with
  | name :: value :: _ => (FieldValue.ofText? value).map fun value => { name, value := some value }
  | _ => some { name := s, value := none }

def text (f : FieldMatch) : String :=
  match f.value with
  | none => f.name
  | some v => s!"{f.name}={v.text}"

/-- Orders the values of fields of one name. -/
def compareValues : Option FieldValue → Option FieldValue → Ordering
  | some a, some b => a.compare b
  | _, _ => .eq

/-- Orders fields by whether they have a value, by name and by value. -/
def compare (a b : FieldMatch) : Ordering :=
  (Ord.compare a.value.isSome b.value.isSome).then <|
    (Ord.compare a.name b.name).then (compareValues a.value b.value)

/-- Orders lists as a dictionary does. -/
def compareAll : List FieldMatch → List FieldMatch → Ordering
  | [], [] => .eq
  | [], _ :: _ => .lt
  | _ :: _, [] => .gt
  | a :: as, b :: bs => (a.compare b).then (compareAll as bs)

end FieldMatch

end StreamTrace
