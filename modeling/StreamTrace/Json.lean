/-!
# JSON values

Integers and floating-point numbers are told apart, since the formats built on JSON do: an integer
field refuses `1.0`. Floating-point numbers are finite patterns of 64 bits. An object lists its
members in order; where a name occurs twice, the last one counts.
-/

namespace StreamTrace

inductive Json where
  | null
  | bool (b : Bool)
  | int (n : Int)
  | float (bits : UInt64)
  | str (s : String)
  | arr (items : List Json)
  | obj (members : List (String × Json))
  deriving Repr, Inhabited

namespace Json

def ofNat (n : Nat) : Json := int n

def ofList {α : Type} (f : α → Json) (as : List α) : Json := arr (as.map f)

def ofOption {α : Type} (f : α → Json) : Option α → Json
  | none => null
  | some a => f a

/-- The member of that name that counts. -/
def find? (members : List (String × Json)) (name : String) : Option Json :=
  (members.reverse.find? (·.1 == name)).map (·.2)

/-- The member `name` of an object. -/
def member? : Json → String → Option Json
  | obj members, name => find? members name
  | _, _ => none

def asInt? : Json → Option Int
  | int n => some n
  | _ => none

def asString? : Json → Option String
  | str s => some s
  | _ => none

def asBool? : Json → Option Bool
  | bool b => some b
  | _ => none

def asArray? : Json → Option (List Json)
  | arr items => some items
  | _ => none

/-- The item of an array at that place. -/
def item? : Json → Nat → Option Json
  | arr items, i => items[i]?
  | _, _ => none

/-- The member of that name, unless it is null. -/
def given? (j : Json) (name : String) : Option Json :=
  match j.member? name with
  | some null => none
  | m => m

/-- An integer in `low ≤ n < high`. -/
def intIn? (low high : Int) (j : Json) : Option Int :=
  j.asInt?.filter fun n => low ≤ n ∧ n < high

/-- A natural number of at most `bits` bits. -/
def natBelow? (bits : Nat) (j : Json) : Option Nat :=
  (j.intIn? 0 (Nat.pow 2 bits)).map Int.toNat

/-- A number of `bits` bits in two's complement. -/
def signed? (bits : Nat) (j : Json) : Option Int :=
  j.intIn? (-Nat.pow 2 (bits - 1)) (Nat.pow 2 (bits - 1))

/-- A member that is a text. -/
def givenString? (j : Json) (name : String) : Option String := (j.given? name).bind asString?

/-- A member that is a number of at most `bits` bits. -/
def givenNat? (j : Json) (name : String) (bits : Nat) : Option Nat :=
  (j.given? name).bind (·.natBelow? bits)

/-- A member that is a truth value. -/
def givenBool? (j : Json) (name : String) : Option Bool := (j.given? name).bind asBool?

/-- The items of a member that is an array; none where it is missing. -/
def givenItems (j : Json) (name : String) : List Json :=
  ((j.given? name).bind asArray?).getD []

end Json

end StreamTrace
