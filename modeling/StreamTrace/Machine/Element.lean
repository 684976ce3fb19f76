import StreamTrace.Ieee

/-!
# Elements and lambdas

What streams of the simulated program carry, and the functions that the program applies to them.
-/

namespace StreamTrace

/-- A stream element as the program sees it. -/
inductive Element where
  | null
  | bool (v : Bool)
  | int (v : Int32)
  | long (v : Int64)
  | double (bits : UInt64)
  | str (s : String)
  deriving Repr, DecidableEq, Inhabited

namespace Element

def isTrue : Element → Bool
  | bool true => true
  | _ => false

/-- Equality in which floating-point elements are compared as numbers. -/
def same : Element → Element → Bool
  | double a, double b => FloatFormat.double.same a.toNat b.toNat
  | a, b => a == b

end Element

/-- What a lambda does with an element. -/
inductive LambdaOutcome where
  | value (e : Element)
  /-- Throws an exception of that class. With `caught` the lambda handles it itself and returns
  that element instead. -/
  | raise (exception : String) (caught : Option Element)
  /-- Throws an exception, in whose place another one leaves the lambda. -/
  | raiseReplaced (exception replacement : String)
  /-- Ends the virtual machine. -/
  | exitVm
  deriving Repr, DecidableEq

abbrev Lambda := Element → LambdaOutcome

/-- What a lambda given by cases does: a fixed outcome, or giving its element back. -/
inductive LambdaRule where
  | same
  | outcome (o : LambdaOutcome)
  deriving Repr, DecidableEq

def LambdaRule.apply (e : Element) : LambdaRule → LambdaOutcome
  | same => .value e
  | outcome o => o

/-- The lambda that follows the rule of the first case with an equal element. -/
def Lambda.ofCases (cases : List (Element × LambdaRule)) (otherwise : LambdaRule) : Lambda :=
  fun e => (((cases.find? fun c => c.1.same e).map (·.2)).getD otherwise).apply e

end StreamTrace
