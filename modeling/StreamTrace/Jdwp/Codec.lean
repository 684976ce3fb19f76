import StreamTrace.Jdwp.Event
import StreamTrace.Json
import StreamTrace.Text.Hex

/-!
# Protocol data in JSON

How values, places, events and descriptions of the debuggee are written in JSON. A value is its tag
and its content, a location its four numbers; floating-point values are written by their bits. A
tag is a character where it can be shown, and a number otherwise.
-/

namespace StreamTrace

open Json (ofNat ofList ofOption)

namespace Tag

def toJson (t : UInt8) : Json :=
  if 0x21 ≤ t.toNat ∧ t.toNat ≤ 0x7e then .str (String.singleton (Char.ofNat t.toNat))
  else ofNat t.toNat

def ofJson? : Json → Option UInt8
  | .str s => s.toList.head?.map fun c => UInt8.ofNat c.toNat
  | j => (j.natBelow? 8).map UInt8.ofNat

end Tag

namespace Value

def bitsToJson (width bits : Nat) : Json := .str (String.ofList (Hex.digits width bits))

def bitsOfJson? (j : Json) : Option Nat := do Hex.number? (← j.asString?).toList

def toJson : Value → Json
  | boolean v => .arr [.str "Z", .bool v]
  | byte v => .arr [.str "B", .int v.toInt]
  | char v => .arr [.str "C", ofNat v.toNat]
  | short v => .arr [.str "S", .int v.toInt]
  | int v => .arr [.str "I", .int v.toInt]
  | long v => .arr [.str "J", .int v.toInt]
  | float bits => .arr [.str "F", bitsToJson 8 bits.toNat]
  | double bits => .arr [.str "D", bitsToJson 16 bits.toNat]
  | void => .arr [.str "V"]
  | reference t id => .arr [Tag.toJson t, ofNat id]

def ofJson? (j : Json) : Option Value := do
  let content := (j.item? 1).getD .null
  match ← j.item? 0 with
  | .str "Z" => return boolean (← content.asBool?)
  | .str "B" => return byte (Int8.ofInt (← content.signed? 8))
  | .str "C" => return char (UInt16.ofNat (← content.natBelow? 16))
  | .str "S" => return short (Int16.ofInt (← content.signed? 16))
  | .str "I" => return int (Int32.ofInt (← content.signed? 32))
  | .str "J" => return long (Int64.ofInt (← content.signed? 64))
  | .str "F" => return float (UInt32.ofNat (← bitsOfJson? content))
  | .str "D" => return double (UInt64.ofNat (← bitsOfJson? content))
  | .str "V" => return void
  | t => return reference (← Tag.ofJson? t) (← content.natBelow? 64)

def listOfJson? (j : Json) : Option (List Value) := do (← j.asArray?).mapM ofJson?

end Value

namespace Location

def toJson (l : Location) : Json :=
  .arr [ofNat l.typeTag.toNat, ofNat l.typeId, ofNat l.methodId, ofNat l.index.toNat]

def ofJson? (j : Json) : Option Location := do
  let typeTag ← (← j.item? 0).natBelow? 8
  let typeId ← (← j.item? 1).natBelow? 64
  let methodId ← (← j.item? 2).natBelow? 64
  let index ← (← j.item? 3).natBelow? 64
  return { typeTag := UInt8.ofNat typeTag, typeId, methodId, index := UInt64.ofNat index }

end Location

/-! ## Descriptions -/

namespace ClassInfo

def toJson (c : ClassInfo) : Json :=
  .obj [("tag", ofNat c.typeTag.toNat), ("typeId", ofNat c.typeId),
    ("signature", .str c.signature), ("status", ofNat c.status.toNat)]

def ofJson? (j : Json) : Option ClassInfo := do
  let typeTag ← j.givenNat? "tag" 8
  let typeId ← j.givenNat? "typeId" 64
  let signature ← j.givenString? "signature"
  let status ← j.givenNat? "status" 32
  return { typeTag := UInt8.ofNat typeTag, typeId, signature, status := UInt32.ofNat status }

end ClassInfo

namespace MethodInfo

def toJson (m : MethodInfo) : Json :=
  .obj [("methodId", ofNat m.methodId), ("name", .str m.name), ("signature", .str m.signature),
    ("modBits", ofNat m.modifiers.toNat)]

def ofJson? (j : Json) : Option MethodInfo := do
  let methodId ← j.givenNat? "methodId" 64
  let name ← j.givenString? "name"
  let signature ← j.givenString? "signature"
  let modifiers ← j.givenNat? "modBits" 32
  return { methodId, name, signature, modifiers := UInt32.ofNat modifiers }

end MethodInfo

namespace VariableInfo

def toJson (v : VariableInfo) : Json :=
  .obj [("codeIndex", ofNat v.codeIndex.toNat), ("name", .str v.name),
    ("signature", .str v.signature), ("length", ofNat v.length.toNat), ("slot", ofNat v.slot)]

def ofJson? (j : Json) : Option VariableInfo := do
  let codeIndex ← j.givenNat? "codeIndex" 64
  let name ← j.givenString? "name"
  let signature ← j.givenString? "signature"
  let length ← j.givenNat? "length" 32
  let slot ← j.givenNat? "slot" 32
  return { codeIndex := UInt64.ofNat codeIndex, name, signature, length := UInt32.ofNat length,
           slot }

end VariableInfo

namespace FrameInfo

def toJson (f : FrameInfo) : Json :=
  .obj [("frameId", ofNat f.frameId), ("location", f.location.toJson)]

def ofJson? (j : Json) : Option FrameInfo := do
  let frameId ← j.givenNat? "frameId" 64
  let location ← (j.given? "location").bind Location.ofJson?
  return { frameId, location }

end FrameInfo

namespace InvokeOutcome

def toJson (o : InvokeOutcome) : Json :=
  .obj [("value", o.value.toJson), ("exception", ofOption ofNat o.exception)]

def ofJson? (j : Json) : Option InvokeOutcome := do
  let value ← (j.given? "value").bind Value.ofJson?
  return { value, exception := j.givenNat? "exception" 64 }

end InvokeOutcome

/-! ## Events -/

namespace Event

/-- The members that the events of requests share. -/
def members (kind : String) (r : RequestId) (t : ThreadId) : List (String × Json) :=
  [("kind", .str kind), ("requestId", .int r), ("thread", ofNat t)]

def placed (kind : String) (r : RequestId) (t : ThreadId) (l : Location)
    (rest : List (String × Json)) : Json :=
  .obj (members kind r t ++ ("location", l.toJson) :: rest)

def toJson : Event → Json
  | singleStep r t l => placed "singleStep" r t l []
  | breakpoint r t l => placed "breakpoint" r t l []
  | methodEntry r t l => placed "methodEntry" r t l []
  | methodExit r t l => placed "methodExit" r t l []
  | methodExitWithValue r t l v =>
    placed "methodExitWithReturnValue" r t l [("value", v.toJson)]
  | exception r t l x caught =>
    placed "exception" r t l
      [("exception", ofNat x), ("catchLocation", ofOption Location.toJson caught)]
  | classPrepare r t typeTag typeId signature status =>
    .obj (members "classPrepare" r t ++
      [("tag", ofNat typeTag.toNat), ("typeId", ofNat typeId), ("signature", .str signature),
        ("status", ofNat status.toNat)])
  | vmStart r t => .obj (members "vmStart" r t)
  | vmDeath => .obj [("kind", .str "vmDeath")]

def ofJson? (j : Json) : Option Event := do
  let request : Option RequestId := (j.given? "requestId").bind (·.signed? 32)
  let thread := j.givenNat? "thread" 64
  let place := (j.given? "location").bind Location.ofJson?
  match ← j.givenString? "kind" with
  | "singleStep" => return singleStep (← request) (← thread) (← place)
  | "breakpoint" => return breakpoint (← request) (← thread) (← place)
  | "methodEntry" => return methodEntry (← request) (← thread) (← place)
  | "methodExit" => return methodExit (← request) (← thread) (← place)
  | "methodExitWithReturnValue" =>
    let v ← (j.given? "value").bind Value.ofJson?
    return methodExitWithValue (← request) (← thread) (← place) v
  | "exception" =>
    let x ← j.givenNat? "exception" 64
    let caught := (j.given? "catchLocation").bind Location.ofJson?
    return exception (← request) (← thread) (← place) x caught
  | "classPrepare" =>
    let c ← ClassInfo.ofJson? j
    return classPrepare (← request) (← thread) c.typeTag c.typeId c.signature c.status
  | "vmStart" => return vmStart (← request) (← thread)
  | "vmDeath" => return vmDeath
  | _ => none

end Event

namespace EventModifier

def toJson : EventModifier → Json
  | count n => .obj [("count", ofNat n.toNat)]
  | threadOnly t => .obj [("threadOnly", ofNat t)]
  | classOnly c => .obj [("classOnly", ofNat c)]
  | classMatch s => .obj [("classMatch", .str s)]
  | locationOnly l => .obj [("locationOnly", l.toJson)]
  | exceptionOnly c caught uncaught =>
    .obj [("exceptionOnly", .arr [ofNat c, .bool caught, .bool uncaught])]
  | step t size depth => .obj [("step", .arr [ofNat t, ofNat size.toNat, ofNat depth.toNat])]

def ofContent? (name : String) (j : Json) : Option EventModifier := do
  match name with
  | "count" => return count (UInt32.ofNat (← j.natBelow? 32))
  | "threadOnly" => return threadOnly (← j.natBelow? 64)
  | "classOnly" => return classOnly (← j.natBelow? 64)
  | "classMatch" => return classMatch (← j.asString?)
  | "locationOnly" => return locationOnly (← Location.ofJson? j)
  | "exceptionOnly" =>
    let c ← (← j.item? 0).natBelow? 64
    return exceptionOnly c (← (← j.item? 1).asBool?) (← (← j.item? 2).asBool?)
  | "step" =>
    let t ← (← j.item? 0).natBelow? 64
    let size ← (← j.item? 1).natBelow? 32
    let depth ← (← j.item? 2).natBelow? 32
    return step t (UInt32.ofNat size) (UInt32.ofNat depth)
  | _ => none

def ofJson? : Json → Option EventModifier
  | .obj [(name, content)] => ofContent? name content
  | _ => none

end EventModifier

end StreamTrace
