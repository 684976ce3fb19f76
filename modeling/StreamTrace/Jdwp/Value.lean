import StreamTrace.Ieee

/-!
# Values of the debuggee

What travels between the debugger and the virtual machine: identifiers, code locations and tagged
values. A reference carries the tag it came with, and the null reference has identifier 0.
Floating-point values are bit patterns; `Value.same` compares them as numbers.
-/

namespace StreamTrace

abbrev ObjectId := Nat
abbrev ThreadId := Nat
abbrev FrameId := Nat
abbrev MethodId := Nat
abbrev TypeId := Nat
abbrev RequestId := Int

/-- A position in the code of a method. -/
structure Location where
  typeTag : UInt8
  typeId : TypeId
  methodId : MethodId
  index : UInt64
  deriving Repr, DecidableEq, Inhabited

/-- Whether both locations lie in one method, wherever in it. -/
def Location.sameMethod (a b : Location) : Bool := a.typeId == b.typeId && a.methodId == b.methodId

/-! The tags of references. -/
namespace Tag

def object : UInt8 := 'L'.toUInt8
def array : UInt8 := '['.toUInt8
def string : UInt8 := 's'.toUInt8
def thread : UInt8 := 't'.toUInt8
def classLoader : UInt8 := 'l'.toUInt8
def classObject : UInt8 := 'c'.toUInt8
def void : UInt8 := 'V'.toUInt8

end Tag

/-! The tags of loaded types. -/
namespace TypeTag

def classType : UInt8 := 1
def interface : UInt8 := 2
def array : UInt8 := 3

end TypeTag

inductive Value where
  | boolean (v : Bool)
  | byte (v : Int8)
  | char (v : UInt16)
  | short (v : Int16)
  | int (v : Int32)
  | long (v : Int64)
  | float (bits : UInt32)
  | double (bits : UInt64)
  | reference (tag : UInt8) (id : ObjectId)
  | void
  deriving Repr, DecidableEq, Inhabited

namespace Value

def null : Value := reference Tag.object 0

def object (id : ObjectId) : Value := reference Tag.object id

def tag : Value → UInt8
  | boolean _ => 'Z'.toUInt8
  | byte _ => 'B'.toUInt8
  | char _ => 'C'.toUInt8
  | short _ => 'S'.toUInt8
  | int _ => 'I'.toUInt8
  | long _ => 'J'.toUInt8
  | float _ => 'F'.toUInt8
  | double _ => 'D'.toUInt8
  | reference t _ => t
  | void => Tag.void

/-- The identifier of a reference other than null. -/
def objectId? : Value → Option ObjectId
  | reference _ id => if id = 0 then none else some id
  | _ => none

def isReference : Value → Bool
  | reference _ _ => true
  | _ => false

def isNull : Value → Bool
  | reference _ id => id == 0
  | _ => false

def isPrimitive : Value → Bool
  | reference _ _ => false
  | void => false
  | _ => true

def asInt? : Value → Option Int32
  | int v => some v
  | _ => none

def asLong? : Value → Option Int64
  | long v => some v
  | _ => none

def asBool? : Value → Option Bool
  | boolean v => some v
  | _ => none

/-- The keyword of a primitive value's type. -/
def primitiveName? : Value → Option String
  | boolean _ => some "boolean"
  | byte _ => some "byte"
  | char _ => some "char"
  | short _ => some "short"
  | int _ => some "int"
  | long _ => some "long"
  | float _ => some "float"
  | double _ => some "double"
  | reference _ _ => none
  | void => none

/-- Equality of values in which floating-point values are compared as numbers. -/
def same : Value → Value → Bool
  | float a, float b => FloatFormat.single.same a.toNat b.toNat
  | double a, double b => FloatFormat.double.same a.toNat b.toNat
  | a, b => a == b

/-- The all-zero value of the type with that signature. -/
def ofSignature (signature : String) : Value :=
  match signature.toList.head? with
  | some 'Z' => boolean false
  | some 'B' => byte 0
  | some 'C' => char 0
  | some 'S' => short 0
  | some 'I' => int 0
  | some 'J' => long 0
  | some 'F' => float 0
  | some 'D' => double 0
  | some 'V' => void
  | some '[' => reference Tag.array 0
  | _ => null

end Value

end StreamTrace
